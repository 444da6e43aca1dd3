/-
  File:      OpenVac/ChatStorage/VerifiedBytes.lean
  Subject:   Verified bytes stay: what the calls of `complete` rest on.

  * `Intact` -- the object under a key has the size and the digest that were declared.
  * `VerifiedSound` -- the invariant: a call past `beginCompletion` locks its row, the bytes it
    has verified stay until it commits, and those of a committed upload stay until a deletion is
    queued.
  * `VerifiedSound.apply` -- a step of the storage that moves no upload keeps it; the commit, the
    reset and the start of an upload have a lemma each.
  * `verified_bytes_stay` -- over every interleaving.
-/
import OpenVac.ChatStorage.UploadRows
import OpenVac.ChatStorage.VerifiedUploads

namespace OpenVac.ChatStorage

open Rows JsString JsUrl

/-! ## 1. The transactions of an upload, by their rows -/

section Transactions

variable {t t' : Tables}

/-- A start adds a row that is reserved. -/
theorem initiate_rows {input : InitiateInput} {now : Int} {r : Attachment}
    (h : initiate input now t = .ok (r, t')) {a' : Attachment} (ha : a' ∈ t'.attachments) :
    a' ∈ t.attachments ∨ a'.id = input.id ∧ a'.quotaState = .reserved := by
  obtain ⟨-, -, -, -, -, rfl⟩ := initiate_ok h
  rcases List.mem_append.mp ha with ha | ha
  · exact Or.inl ha
  · rw [List.mem_singleton.mp ha]
    exact Or.inr ⟨rfl, rfl⟩

/-- A completion begins on a row that is open to it, and marks it. -/
theorem beginCompletion_ok {id : Uuid} {row : Attachment}
    (h : beginCompletion id t = .ok ((row, false), t')) :
    ∃ target ∈ t.attachments, target.id = id ∧ target.beginnable = true ∧
      target.quotaState = .reserved ∧ row.id = id ∧ row.objectKey = target.objectKey ∧
      row.declaredSizeBytes = target.declaredSizeBytes ∧
      t'.attachments = updateWhere (fun a => a.id == id)
        (fun a => { a with status := .scanning, failureCode := none, failureMessage := none })
        t.attachments := by
  unfold beginCompletion findTarget at h
  split at h
  · nomatch h
  · next target hfind =>
    have hmem := List.mem_of_find?_eq_some hfind
    have hcond := List.find?_some hfind
    rw [Bool.and_eq_true, beq_iff_eq] at hcond
    split at h
    · have hflag := congrArg (fun r => r.1.2) (Except.ok.inj h)
      nomatch hflag
    · split at h
      · nomatch h
      · next hstate =>
        simp only [not_or, not_not, Bool.not_eq_true', Bool.not_eq_false] at hstate
        obtain ⟨hreserved, -, hstatus⟩ := hstate
        have hrow := congrArg (fun r => r.1.1) (Except.ok.inj h)
        have htables := congrArg Prod.snd (Except.ok.inj h)
        dsimp only at hrow htables
        subst hrow htables
        have hopen : target.beginnable = true := by
          unfold Attachment.beginnable
          simpa using hstatus
        exact ⟨target, hmem, hcond.1, hopen, hreserved, hcond.1, rfl, rfl, rfl⟩

/-- A commit commits its own row, and none becomes open to a completion again. -/
theorem completeVerified_rows {id : Uuid} {sizeBytes : ℤ} {etag : Option String} {now : Int}
    {r : Option Attachment} (h : completeVerified id sizeBytes etag now t = .ok (r, t'))
    {a' : Attachment} (ha : a' ∈ t'.attachments) :
    ∃ a ∈ t.attachments, a'.id = a.id ∧ a'.objectKey = a.objectKey ∧
      a'.declaredSizeBytes = a.declaredSizeBytes ∧
      (a'.quotaState = .committed → a.quotaState = .committed ∨ a.id = id) ∧
      (a'.beginnable = true → a.beginnable = true) := by
  unfold completeVerified at h
  split at h
  · nomatch h
  · next target hfind =>
    split at h
    · nomatch h
    · obtain rfl := congrArg Prod.snd (Except.ok.inj h)
      obtain ⟨a, hmem, rfl⟩ := mem_updateWhere.mp ha
      refine ⟨a, hmem, ?_⟩
      by_cases hid : (a.id == id) = true
      · rw [if_pos hid]
        refine ⟨rfl, rfl, rfl, fun _ => Or.inr (beq_iff_eq.mp hid), fun hb => ?_⟩
        unfold Attachment.beginnable at hb
        dsimp only at hb
        split at hb <;> nomatch hb
      · rw [if_neg hid]
        exact ⟨rfl, rfl, rfl, Or.inl, fun hb => hb⟩

/-- A reset or a rejection leaves a committed row alone. -/
theorem resetCompletion_committed (id : Uuid) {a : Attachment} (ha : a ∈ t.attachments)
    (hc : a.quotaState = .committed) : a ∈ (resetCompletion id t).attachments := by
  have hm := mem_updateWhere_of_mem
    (p := fun a => a.id == id && a.status == .scanning && a.quotaState == .reserved &&
      a.deletionStatus == .active)
    (f := fun a => { a with status := .initiated }) ha
  rw [hc, if_neg (by simp)] at hm
  exact hm

theorem rejectCompletion_committed (hw : WellFormed t) (id : Uuid) (code message : String)
    (now : Int) {a : Attachment} (ha : a ∈ t.attachments) (hc : a.quotaState = .committed) :
    a ∈ (rejectCompletion id code message now t).attachments := by
  unfold rejectCompletion findScanning
  split
  · exact ha
  · next target hfind =>
    have hcond := List.find?_some hfind
    simp only [Bool.and_eq_true, beq_iff_eq] at hcond
    obtain ⟨⟨hid, -⟩, hreserved⟩ := hcond
    have hne : a.id ≠ id := by
      intro e
      have hsame := hw.attachmentIds.eq ha (List.mem_of_find?_eq_some hfind) (e.trans hid.symm)
      rw [hsame, hreserved] at hc
      nomatch hc
    rw [← insertJobs_one, insertJobs_attachments]
    have hm := mem_updateWhere_of_mem (p := fun a : Attachment => a.id == id)
      (f := fun a =>
        { a with
          status := .failed
          parse := { a.parse with status := .failed }
          quotaState := .released
          deletionStatus := .queued
          failureCode := some code
          failureMessage := some message }) ha
    rw [if_neg (by simpa using hne)] at hm
    exact hm

theorem step_initiate_rows [Sha256] (s : Storage) (id conversationId : Uuid)
    (kind : AttachmentKind) (filename mimeType : String) (sizeBytes : ℤ) (startedAt : Int) :
    ∀ a' ∈ (s.step greatest (.initiate id conversationId kind filename mimeType sizeBytes
        startedAt)).tables.attachments,
      a' ∈ s.tables.attachments ∨ a'.id = id ∧ a'.quotaState = .reserved := by
  intro a' ha'
  unfold Storage.step Storage.transact at ha'
  dsimp only at ha'
  split at ha'
  · exact Or.inl ha'
  · dsimp only at ha'
    rcases Machine.commit_cases (s.draw id).tables (initiate
      { id := id
        conversationId := conversationId
        kind := kind
        filename := filename
        mimeType := mimeType
        declaredSizeBytes := sizeBytes
        objectKey := .attachment conversationId id filename
        uploadExpiresAt := startedAt + UPLOAD_URL_TTL_MS
        orphanExpiresAt := startedAt + ORPHAN_UPLOAD_TTL_MS } s.now (s.draw id).tables) with
      he | ⟨r, t', ht, he⟩
    · rw [he] at ha'
      exact Or.inl ha'
    · rw [he] at ha'
      exact initiate_rows ht ha'

end Transactions

/-! ## 2. The invariant -/

section Invariant

variable [BytesDigest]

/-- The object under the key has this size and this digest. -/
def Intact (objects : ObjectKey → Option StoredBytes) (objectKey : ObjectKey) (sizeBytes : ℤ)
    (sha256 : Text) : Prop :=
  ∃ object, objects objectKey = some object ∧ (object.bytes.length : ℤ) = sizeBytes ∧
    BytesDigest.sha256 object.bytes = sha256

/-- The attachment a call works on. -/
def CompleteCall.id (call : CompleteCall) : Uuid := call.target.row.id

/-- What the row of a call's attachment has: it is not open to another completion, and it is the
    row the call has read. -/
structure CompleteCall.Locks (call : CompleteCall) (a : Attachment) : Prop where
  closed : a.beginnable = false
  objectKey : a.objectKey = call.target.row.objectKey
  declared : a.declaredSizeBytes = call.target.row.declaredSizeBytes

structure VerifiedSound [CaseTables] (u : VerifiedUploads) : Prop where
  sound : Sound u.storage
  forbids : ∀ url ∈ u.urls, url.forbidsOverwrite = true
  deleting : ∀ claimed ∈ u.storage.deleting, HasJob u.storage.tables claimed.objectKey
  drawn : ∀ call ∈ u.calls, call.id ∈ u.storage.issued
  digest : ∀ call ∈ u.calls, call.target.sha256 = u.sha256 call.id
  one : (u.calls.map CompleteCall.id).Nodup
  locks : ∀ call ∈ u.calls, ∀ a ∈ u.storage.tables.attachments, a.id = call.id → call.Locks a
  verified : ∀ call ∈ u.calls, ∀ sizeBytes etag, call.phase = .commit sizeBytes etag →
    ¬ HasJob u.storage.tables call.target.row.objectKey →
    Intact u.objects call.target.row.objectKey call.target.row.declaredSizeBytes call.target.sha256
  committed : ∀ a ∈ u.storage.tables.attachments, a.quotaState = .committed →
    ¬ HasJob u.storage.tables a.objectKey →
    Intact u.objects a.objectKey a.declaredSizeBytes (u.sha256 a.id)

end Invariant

/-! ## 3. The steps -/

section Calls

variable [CaseTables] [BytesDigest] {u : VerifiedUploads}

theorem VerifiedUploads.initial_sound : VerifiedSound VerifiedUploads.initial where
  sound := Storage.initial_sound
  forbids := fun _ h => nomatch h
  deleting := fun _ h => nomatch h
  drawn := fun _ h => nomatch h
  digest := fun _ h => nomatch h
  one := List.nodup_nil
  locks := fun _ h => nomatch h
  verified := fun _ h => nomatch h
  committed := fun _ h => nomatch h

/-- A call that is over. -/
theorem VerifiedSound.finish (hv : VerifiedSound u) (call : Nat) :
    VerifiedSound (u.finish call) := by
  have hsub : ∀ c ∈ u.calls.eraseIdx call, c ∈ u.calls := fun c hc =>
    (List.eraseIdx_sublist u.calls call).subset hc
  exact
    { sound := hv.sound
      forbids := hv.forbids
      deleting := hv.deleting
      drawn := fun c hc => hv.drawn c (hsub c hc)
      digest := fun c hc => hv.digest c (hsub c hc)
      one := hv.one.sublist ((List.eraseIdx_sublist u.calls call).map _)
      locks := fun c hc => hv.locks c (hsub c hc)
      verified := fun c hc => hv.verified c (hsub c hc)
      committed := hv.committed }

/-- A call that goes on: what it holds to be verified is. -/
theorem VerifiedSound.goOn (hv : VerifiedSound u) {call : Nat} {target : ChatAttachmentTarget}
    {old phase : CallPhase} (hcall : u.calls[call]? = some ⟨target, old⟩)
    (hphase : ∀ sizeBytes etag, phase = .commit sizeBytes etag →
      Intact u.objects target.row.objectKey target.row.declaredSizeBytes target.sha256) :
    VerifiedSound (u.goOn call target phase) := by
  have hold : (⟨target, old⟩ : CompleteCall) ∈ u.calls := List.mem_of_getElem? hcall
  have hmem : ∀ c ∈ u.calls.set call ⟨target, phase⟩, c ∈ u.calls ∨ c = ⟨target, phase⟩ :=
    fun c hc => List.mem_or_eq_of_mem_set hc
  have hids : (u.calls.set call ⟨target, phase⟩).map CompleteCall.id =
      u.calls.map CompleteCall.id := by
    have hid : (u.calls.map CompleteCall.id)[call]? = some target.row.id := by
      rw [List.getElem?_map, hcall]
      rfl
    rw [List.map_set]
    refine List.ext_getElem? fun i => ?_
    rw [List.getElem?_set]
    split
    · next he =>
      subst he
      obtain ⟨hlt, _⟩ := List.getElem?_eq_some_iff.mp hid
      rw [if_pos hlt, hid]
      rfl
    · rfl
  exact
    { sound := hv.sound
      forbids := hv.forbids
      deleting := hv.deleting
      drawn := fun c hc => by
        rcases hmem c hc with hc | rfl
        · exact hv.drawn c hc
        · have hdrawn := hv.drawn _ hold
          exact hdrawn
      digest := fun c hc => by
        rcases hmem c hc with hc | rfl
        · exact hv.digest c hc
        · have hdigest := hv.digest _ hold
          exact hdigest
      one := by
        show ((u.calls.set call ⟨target, phase⟩).map CompleteCall.id).Nodup
        rw [hids]
        exact hv.one
      locks := fun c hc a ha hid => by
        rcases hmem c hc with hc | rfl
        · exact hv.locks c hc a ha hid
        · obtain ⟨h1, h2, h3⟩ := hv.locks _ hold a ha hid
          exact ⟨h1, h2, h3⟩
      verified := fun c hc sizeBytes etag hp hno => by
        rcases hmem c hc with hc | rfl
        · exact hv.verified c hc sizeBytes etag hp hno
        · exact hphase sizeBytes etag hp
      committed := hv.committed }

/-- Other objects, where those without a job are intact. -/
theorem VerifiedSound.withObjects (hv : VerifiedSound u)
    (objects : ObjectKey → Option StoredBytes)
    (hkeep : ∀ objectKey sizeBytes sha256, ¬ HasJob u.storage.tables objectKey →
      Intact u.objects objectKey sizeBytes sha256 → Intact objects objectKey sizeBytes sha256) :
    VerifiedSound { u with objects := objects } :=
  { sound := hv.sound
    forbids := hv.forbids
    deleting := hv.deleting
    drawn := hv.drawn
    digest := hv.digest
    one := hv.one
    locks := hv.locks
    verified := fun call hcall sizeBytes etag hphase hno =>
      hkeep _ _ _ hno (hv.verified call hcall sizeBytes etag hphase hno)
    committed := fun a ha hc hno => hkeep _ _ _ hno (hv.committed a ha hc hno) }

/-- A PUT never replaces an object. -/
theorem VerifiedSound.put (hv : VerifiedSound u) (url : PrivateUploadUrl) (object : StoredBytes) :
    VerifiedSound (u.put url object) := by
  unfold VerifiedUploads.put
  split
  · exact hv
  · next hguard =>
    rw [not_or, not_not] at hguard
    split
    · exact hv
    · next hvacant =>
      have hnone : u.objects url.key = none := by
        rw [not_and, hv.forbids url hguard.1] at hvacant
        simpa using hvacant rfl
      refine hv.withObjects _ ?_
      rintro objectKey sizeBytes sha256 - ⟨stored, hstored, hrest⟩
      refine ⟨stored, ?_, hrest⟩
      have hne : objectKey ≠ url.key := by
        rintro rfl
        rw [hnone] at hstored
        nomatch hstored
      rw [Function.update_of_ne hne]
      exact hstored

/-- The worker deletes objects that have a job. -/
theorem VerifiedSound.deletePrivate (hv : VerifiedSound u) {claimed : ClaimedDeletion}
    (hclaimed : claimed ∈ u.storage.deleting) :
    VerifiedSound { u with objects := Function.update u.objects claimed.objectKey none } := by
  refine hv.withObjects _ ?_
  rintro objectKey sizeBytes sha256 hno ⟨stored, hstored, hrest⟩
  refine ⟨stored, ?_, hrest⟩
  have hne : objectKey ≠ claimed.objectKey := by
    rintro rfl
    exact hno (hv.deleting claimed hclaimed)
  rw [Function.update_of_ne hne]
  exact hstored

/-- The call at a place is the only one of its attachment. -/
theorem VerifiedSound.free_finish (hv : VerifiedSound u) {place : Nat} {call : CompleteCall}
    (hcall : u.calls[place]? = some call) :
    ∀ other ∈ (u.finish place).calls, other.id ≠ call.id := by
  intro other hother he
  obtain ⟨hlt, hget⟩ := List.getElem?_eq_some_iff.mp hcall
  have hother : other ∈ u.calls.eraseIdx place := hother
  obtain ⟨i, hi, hne, hother⟩ := List.mem_eraseIdx_iff_getElem.mp hother
  have hlt' : place < (u.calls.map CompleteCall.id).length := by simpa using hlt
  have hi' : i < (u.calls.map CompleteCall.id).length := by simpa using hi
  have hsame : (u.calls.map CompleteCall.id)[i] = (u.calls.map CompleteCall.id)[place] := by
    rw [List.getElem_map, List.getElem_map, hother, hget, he]
  exact hne ((List.Nodup.getElem_inj_iff hv.one).mp hsame)

end Calls

section Steps

variable [Sha256] [CaseTables] [BytesDigest] {u : VerifiedUploads}

/-- What every step of the storage keeps: what remains is said of the rows. -/
theorem VerifiedSound.storage (hv : VerifiedSound u) (action : Action)
    (hlocks : ∀ call ∈ u.calls, ∀ a ∈ (u.storage.step greatest action).tables.attachments,
      a.id = call.id → call.Locks a)
    (hcommitted : ∀ a ∈ (u.storage.step greatest action).tables.attachments,
      a.quotaState = .committed → ¬ HasJob u.storage.tables a.objectKey →
      Intact u.objects a.objectKey a.declaredSizeBytes (u.sha256 a.id)) :
    VerifiedSound (u.apply action) where
  sound := Storage.step_sound greatest_exact hv.sound action
  forbids := hv.forbids
  deleting := step_deleting hv.sound action hv.deleting
  drawn := fun call hcall => (step_frame greatest u.storage action).issued _ (hv.drawn call hcall)
  digest := hv.digest
  one := hv.one
  locks := hlocks
  verified := fun call hcall sizeBytes etag hphase hno =>
    hv.verified call hcall sizeBytes etag hphase fun hj => hno (step_hasJob hv.sound action hj)
  committed := fun a ha hc hno =>
    hcommitted a ha hc fun hj => hno (step_hasJob hv.sound action hj)

/-- **A step that moves no upload.** -/
theorem VerifiedSound.apply (hv : VerifiedSound u) {action : Action}
    (h : action.movesUpload = false) : VerifiedSound (u.apply action) := by
  have hrows := @step_stays _ greatest _ hv.sound _ h
  refine hv.storage action (fun call hcall a' ha' hid => ?_) fun a' ha' hc hno => ?_
  · obtain ⟨a, ha, hs⟩ := hrows a' ha'
    obtain ⟨hclosed, hkey, hdeclared⟩ := hv.locks call hcall a ha (hs.id.symm.trans hid)
    refine ⟨?_, hs.objectKey.trans hkey, hs.declared.trans hdeclared⟩
    rw [Bool.eq_false_iff]
    intro hopen
    rw [hs.beginnable hopen] at hclosed
    nomatch hclosed
  · obtain ⟨a, ha, hs⟩ := hrows a' ha'
    rw [hs.objectKey] at hno
    rw [hs.objectKey, hs.declared, hs.id]
    exact hv.committed a ha (hs.committed hc) hno

/-- **The commit of a call**: what it verified is what the committed row declares. -/
theorem VerifiedSound.commit (hv : VerifiedSound u) {call : CompleteCall} (hcall : call ∈ u.calls)
    {sizeBytes : Nat} {etag : Option String} (hphase : call.phase = .commit sizeBytes etag) :
    VerifiedSound (u.apply (.completeVerified call.id sizeBytes etag)) := by
  have hrows : ∀ a' ∈ (u.storage.step greatest
      (.completeVerified call.id sizeBytes etag)).tables.attachments,
      ∃ a ∈ u.storage.tables.attachments, a'.id = a.id ∧ a'.objectKey = a.objectKey ∧
        a'.declaredSizeBytes = a.declaredSizeBytes ∧
        (a'.quotaState = .committed → a.quotaState = .committed ∨ a.id = call.id) ∧
        (a'.beginnable = true → a.beginnable = true) := by
    intro a' ha'
    have ha' : a' ∈ (Machine.commit u.storage.tables (completeVerified call.id sizeBytes etag
      u.storage.now u.storage.tables)).attachments := ha'
    rcases Machine.commit_cases u.storage.tables (completeVerified call.id sizeBytes etag
      u.storage.now u.storage.tables) with he | ⟨r, t', ht, he⟩
    · rw [he] at ha'
      exact ⟨a', ha', rfl, rfl, rfl, Or.inl, fun hb => hb⟩
    · rw [he] at ha'
      exact completeVerified_rows ht ha'
  refine hv.storage _ (fun other hother a' ha' hid => ?_) fun a' ha' hc hno => ?_
  · obtain ⟨a, ha, h1, h2, h3, -, hopen⟩ := hrows a' ha'
    obtain ⟨hclosed, hkey, hdeclared⟩ := hv.locks other hother a ha (h1.symm.trans hid)
    refine ⟨?_, h2.trans hkey, h3.trans hdeclared⟩
    rw [Bool.eq_false_iff]
    intro hb
    rw [hopen hb] at hclosed
    nomatch hclosed
  · obtain ⟨a, ha, h1, h2, h3, hcom, -⟩ := hrows a' ha'
    rw [h2] at hno
    rw [h1, h2, h3]
    rcases hcom hc with hold | hid
    · exact hv.committed a ha hold hno
    · -- the row of the call: it is the row the bytes were verified for
      obtain ⟨-, hkey, hdeclared⟩ := hv.locks call hcall a ha hid
      rw [hkey] at hno ⊢
      rw [hdeclared, hid, ← hv.digest call hcall]
      exact hv.verified call hcall sizeBytes etag hphase hno

/-- A reset reopens a row that no call works on any more. -/
theorem VerifiedSound.reopen (hv : VerifiedSound u) {id : Uuid}
    (hfree : ∀ call ∈ u.calls, call.id ≠ id) : VerifiedSound (u.apply (.resetCompletion id)) := by
  have hrows : ∀ a' ∈ (u.storage.step greatest (.resetCompletion id)).tables.attachments,
      a' ∈ u.storage.tables.attachments ∨ a'.id = id ∧ a'.quotaState = .reserved := by
    intro a' ha'
    obtain ⟨a, ha, rfl⟩ := mem_updateWhere.mp ha'
    split
    · next hsel =>
      simp only [Bool.and_eq_true, beq_iff_eq] at hsel
      exact Or.inr ⟨hsel.1.1.1, hsel.1.2⟩
    · exact Or.inl ha
  refine hv.storage _ (fun call hcall a ha hid => ?_) fun a ha hc hno => ?_
  · rcases hrows a ha with ha | ⟨he, -⟩
    · exact hv.locks call hcall a ha hid
    · exact absurd (hid.symm.trans he) (hfree call hcall)
  · rcases hrows a ha with ha | ⟨-, hreserved⟩
    · exact hv.committed a ha hc hno
    · rw [hreserved] at hc
      nomatch hc

/-- A call begins: its row was open, so no other call works on it. -/
theorem VerifiedSound.begin (hv : VerifiedSound u) (id : Uuid) (answer : Answer) :
    VerifiedSound (u.beginCall id answer) := by
  have happly : VerifiedSound (u.apply (.beginCompletion id)) := hv.apply rfl
  unfold VerifiedUploads.beginCall
  split
  · exact hv
  · exact hv
  · exact hv
  · exact happly
  · next row t' htx =>
    obtain ⟨target, hmem, hid, hopen, -, hrow, hkey, hdeclared, hrows⟩ := beginCompletion_ok htx
    have hattachments : (u.storage.step greatest (.beginCompletion id)).tables.attachments =
        t'.attachments := by
      show (Machine.commit u.storage.tables
        (beginCompletion id u.storage.tables)).attachments = _
      rw [htx]
      rfl
    have hfree : ∀ call ∈ u.calls, call.id ≠ id := by
      intro call hcall he
      have hclosed := (hv.locks call hcall target hmem (hid.trans he.symm)).closed
      rw [hopen] at hclosed
      nomatch hclosed
    have hdrawn : id ∈ (u.storage.step greatest (.beginCompletion id)).issued := by
      refine (step_frame greatest u.storage _).issued _ ?_
      rw [← hid]
      exact hv.sound.known.attachmentIds target hmem
    -- the row the call holds, as the transaction left it
    have hlocks : ∀ a ∈ (u.storage.step greatest (.beginCompletion id)).tables.attachments,
        a.id = id → a.beginnable = false ∧ a.objectKey = row.objectKey ∧
          a.declaredSizeBytes = row.declaredSizeBytes := by
      intro a ha hsame
      rw [hattachments, hrows] at ha
      obtain ⟨b, hb, rfl⟩ := mem_updateWhere.mp ha
      by_cases hb' : b.id = id
      · rw [if_pos (beq_iff_eq.mpr hb')]
        have htarget := hv.sound.wellFormed.attachmentIds.eq hb hmem (hb'.trans hid.symm)
        subst htarget
        exact ⟨rfl, hkey.symm, hdeclared.symm⟩
      · rw [if_neg fun e => hb' (beq_iff_eq.mp e)] at hsame
        exact absurd hsame hb'
    have hnew : ∀ c ∈ u.calls ++ [(⟨⟨row, u.sha256 id⟩, .stat⟩ : CompleteCall)],
        c ∈ u.calls ∨ c = ⟨⟨row, u.sha256 id⟩, .stat⟩ := by
      intro c hc
      rcases List.mem_append.mp hc with hc | hc
      · exact Or.inl hc
      · exact Or.inr (List.mem_singleton.mp hc)
    exact
      { sound := happly.sound
        forbids := happly.forbids
        deleting := happly.deleting
        drawn := fun c hc => by
          rcases hnew c hc with hc | rfl
          · exact happly.drawn c hc
          · show row.id ∈ _
            rw [hrow]
            exact hdrawn
        digest := fun c hc => by
          rcases hnew c hc with hc | rfl
          · exact happly.digest c hc
          · show u.sha256 id = u.sha256 row.id
            rw [hrow]
        one := by
          show ((u.calls ++ [(⟨⟨row, u.sha256 id⟩, .stat⟩ : CompleteCall)]).map
            CompleteCall.id).Nodup
          have hone : UniqueOn CompleteCall.id u.calls := hv.one
          refine hone.append_one fun call hcall he => hfree call hcall (he.trans hrow)
        locks := fun c hc a ha he => by
          rcases hnew c hc with hc | rfl
          · exact happly.locks c hc a ha he
          · obtain ⟨h1, h2, h3⟩ := hlocks a ha (he.trans hrow)
            exact ⟨h1, h2, h3⟩
        verified := fun c hc sizeBytes etag hphase hno => by
          rcases hnew c hc with hc | rfl
          · exact happly.verified c hc sizeBytes etag hphase hno
          · nomatch hphase
        committed := happly.committed }

/-- An upload starts under a key of its own. -/
theorem VerifiedSound.initiate (hv : VerifiedSound u) (id conversationId : Uuid)
    (kind : AttachmentKind) (filename mimeType : String) (sizeBytes : ℤ) (sha256 : Text)
    (startedAt : Int) (upload : PrivateUploadUrl) :
    VerifiedSound (u.initiate id conversationId kind filename mimeType sizeBytes sha256 startedAt
      upload) := by
  unfold VerifiedUploads.initiate
  dsimp only
  split
  · exact hv
  · next hguard =>
    rw [not_or, Bool.not_eq_false] at hguard
    obtain ⟨hfresh, hbound⟩ := hguard
    have hrows := step_initiate_rows u.storage id conversationId kind filename mimeType sizeBytes
      startedAt
    have hold : ∀ a ∈ u.storage.tables.attachments, a.id ≠ id := fun a ha he =>
      hfresh (he ▸ hv.sound.known.attachmentIds a ha)
    have hcalls : ∀ call ∈ u.calls, call.id ≠ id := fun call hcall he =>
      hfresh (he ▸ hv.drawn call hcall)
    have happly : VerifiedSound
        (u.apply (.initiate id conversationId kind filename mimeType sizeBytes startedAt)) := by
      refine hv.storage _ (fun call hcall a ha hid => ?_) fun a ha hc hno => ?_
      · rcases hrows a ha with ha | ⟨he, -⟩
        · exact hv.locks call hcall a ha hid
        · exact absurd (hid.symm.trans he) (hcalls call hcall)
      · rcases hrows a ha with ha | ⟨-, hreserved⟩
        · exact hv.committed a ha hc hno
        · rw [hreserved] at hc
          nomatch hc
    split
    · -- the column of the new row; the rows and calls there were have other ids
      exact
        { sound := happly.sound
          forbids := fun url hurl => by
            rcases List.mem_cons.mp hurl with rfl | hurl
            · unfold assertHeaderBoundUpload at hbound
              simp only [Bool.and_eq_true] at hbound
              exact hbound.1.1.1.2
            · exact happly.forbids url hurl
          deleting := happly.deleting
          drawn := happly.drawn
          digest := fun call hcall => by
            show call.target.sha256 = Function.update u.sha256 id sha256 call.id
            rw [Function.update_of_ne (hcalls call hcall)]
            exact hv.digest call hcall
          one := happly.one
          locks := happly.locks
          verified := happly.verified
          committed := fun a ha hc hno => by
            have hintact := happly.committed a ha hc hno
            show Intact u.objects a.objectKey a.declaredSizeBytes
              (Function.update u.sha256 id sha256 a.id)
            rcases hrows a ha with hmem | ⟨-, hreserved⟩
            · rw [Function.update_of_ne (hold a hmem)]
              exact hintact
            · rw [hreserved] at hc
              nomatch hc }
    · exact happly

/-- **Every step keeps the invariant.** -/
theorem VerifiedSound.step (hv : VerifiedSound u) (action : VerifiedAction) :
    VerifiedSound (u.step action) := by
  cases action with
  | initiate id conversationId kind filename mimeType sizeBytes sha256 startedAt upload =>
    exact hv.initiate id conversationId kind filename mimeType sizeBytes sha256 startedAt upload
  | put url object => exact hv.put url object
  | begin id answer => exact hv.begin id answer
  | stat call answers =>
    simp only [VerifiedUploads.step]
    split
    · next target hcall =>
      unfold VerifiedUploads.statCall
      split
      · dsimp only
        split
        · exact hv.goOn hcall fun _ _ h => nomatch h
        · exact hv.goOn hcall fun _ _ h => nomatch h
      · exact hv.goOn hcall fun _ _ h => nomatch h
    · exact hv
  | read call answers =>
    simp only [VerifiedUploads.step]
    split
    · next target stat hcall =>
      unfold VerifiedUploads.readCall
      split
      · next object hobject =>
        split
        · next hmatches =>
          -- the bytes the call has read are the object's
          refine hv.goOn hcall fun _ _ _ => ⟨object, hobject, ?_⟩
          unfold assertStoredObjectMatches at hmatches
          simp only [Bool.and_eq_true, beq_iff_eq] at hmatches
          exact ⟨hmatches.1.1.2, hmatches.1.2⟩
        · exact hv.goOn hcall fun _ _ h => nomatch h
      · exact hv.goOn hcall fun _ _ h => nomatch h
    · exact hv
  | commit call answer =>
    simp only [VerifiedUploads.step]
    split
    · next target sizeBytes etag hcall =>
      have hcommit := hv.commit (List.mem_of_getElem? hcall) rfl
      unfold VerifiedUploads.commitCall
      dsimp only
      split
      · exact hv.goOn hcall fun _ _ h => nomatch h
      · exact hcommit.goOn hcall fun _ _ h => nomatch h
      · split
        · exact hcommit.finish call
        · exact hv.goOn hcall fun _ _ h => nomatch h
        · exact hv.goOn hcall fun _ _ h => nomatch h
    · exact hv
  | reset call reaches =>
    simp only [VerifiedUploads.step]
    split
    · next target hcall =>
      have hfree := hv.free_finish hcall
      have hfinish := hv.finish call
      cases reaches with
      | false => exact hfinish
      | true => exact hfinish.reopen hfree
    · exact hv
  | reject call reaches =>
    simp only [VerifiedUploads.step]
    split
    · cases reaches with
      | false => exact hv.finish call
      | true => exact VerifiedSound.finish (hv.apply rfl) call
    · exact hv
  | abandon call => exact hv.finish call
  | deletePrivate claimed =>
    simp only [VerifiedUploads.step]
    split
    · next hclaimed => exact hv.deletePrivate hclaimed
    · exact hv
  | other action =>
    cases action with
    | initiate id conversationId kind filename mimeType sizeBytes startedAt => exact hv
    | beginCompletion id => exact hv
    | completeVerified id sizeBytes etag => exact hv
    | resetCompletion id => exact hv
    | rejectCompletion id code message => exact hv
    | _ => exact hv.apply rfl

theorem VerifiedUploads.after_sound (actions : List VerifiedAction) :
    VerifiedSound (VerifiedUploads.after actions) :=
  Machine.run_invariant VerifiedUploads.initial_sound (fun _ action h => h.step action) actions

/-! ## 4. Verified bytes stay -/

/-- **Verified bytes stay**, over any interleaving of uploads, PUTs, the steps of calls, deletions
    and whatever else the storage does:

    * the object of a committed upload whose deletion is not queued has the declared size and the
      declared digest;
    * one call at most is past `beginCompletion` for an attachment;
    * no call resets or rejects an attachment that is committed. -/
theorem verified_bytes_stay (actions : List VerifiedAction) :
    let u := VerifiedUploads.after actions
    (∀ a ∈ u.storage.tables.attachments, a.quotaState = .committed →
      ¬ HasJob u.storage.tables a.objectKey →
      ∃ object, u.objects a.objectKey = some object ∧
        (object.bytes.length : ℤ) = a.declaredSizeBytes ∧
        BytesDigest.sha256 object.bytes = u.sha256 a.id) ∧
    (∀ (i j : Nat) (call other : CompleteCall), u.calls[i]? = some call →
      u.calls[j]? = some other → call.target.row.id = other.target.row.id → i = j) ∧
    (∀ a ∈ u.storage.tables.attachments, a.quotaState = .committed → ∀ call reaches,
      a ∈ (u.step (.reset call reaches)).storage.tables.attachments ∧
        a ∈ (u.step (.reject call reaches)).storage.tables.attachments) := by
  intro u
  have hv : VerifiedSound u := VerifiedUploads.after_sound actions
  refine ⟨hv.committed, fun i j call other hi hj hid => ?_, fun a ha hc call reaches => ⟨?_, ?_⟩⟩
  · obtain ⟨hilt, hicall⟩ := List.getElem?_eq_some_iff.mp hi
    obtain ⟨hjlt, hjcall⟩ := List.getElem?_eq_some_iff.mp hj
    have hi' : i < (u.calls.map CompleteCall.id).length := by simpa using hilt
    have hj' : j < (u.calls.map CompleteCall.id).length := by simpa using hjlt
    have hsame : (u.calls.map CompleteCall.id)[i] = (u.calls.map CompleteCall.id)[j] := by
      rw [List.getElem_map, List.getElem_map, hicall, hjcall]
      exact hid
    exact (List.Nodup.getElem_inj_iff hv.one).mp hsame
  · simp only [VerifiedUploads.step]
    split
    · cases reaches with
      | false => exact ha
      | true => exact resetCompletion_committed _ ha hc
    · exact ha
  · simp only [VerifiedUploads.step]
    split
    · cases reaches with
      | false => exact ha
      | true => exact rejectCompletion_committed hv.sound.wellFormed _ _ _ _ ha hc
    · exact ha

end Steps

/-- The digest of `%PDF-1.7`. -/
def pdfDigest : Text :=
  "86edbaa24831badfa0a8b04bb410141e2ee4182b6d0014493fe262a7a331c20b".toList

def pdfMetadata : List (Text × Text) :=
  [("attachment-id".toList, "2".toList), ("size-bytes".toList, "8".toList),
    ("sha256".toList, pdfDigest)]

def pdfUrl : PrivateUploadUrl :=
  { key := .attachment 1 2 "a.pdf"
    isPut := true
    requiredHeaders :=
      [("Content-Type".toList, "application/pdf".toList),
        ("x-oss-object-acl".toList, "private".toList),
        ("x-oss-forbid-overwrite".toList, "true".toList)] ++
      pdfMetadata.map fun entry => ("x-oss-meta-".toList ++ entry.1, entry.2)
    expiresAt := 900000 }

/-- An upload of `%PDF-1.7` from its start to its commit. -/
def pdfUpload : List VerifiedAction :=
  [.other (.addConversation 1),
    .initiate 2 1 .document "a.pdf" "application/pdf" 8 pdfDigest 0 pdfUrl,
    .put pdfUrl
      ⟨[37, 80, 68, 70, 45, 49, 46, 55], some "application/pdf".toList, pdfMetadata, none⟩,
    .begin 2 .heard, .stat 0 true, .read 0 true, .commit 0 .heard]

theorem verified_bytes_stay_pdf :
    let _ : Sha256 := ⟨fun text => text⟩
    let _ : CaseTables := ⟨fun text => text.map Char.toLower⟩
    let _ : BytesDigest := ⟨fun _ => pdfDigest⟩
    ∃ a ∈ (VerifiedUploads.after pdfUpload).storage.tables.attachments,
      a.quotaState = .committed ∧
      ∃ object, (VerifiedUploads.after pdfUpload).objects a.objectKey = some object ∧
        (object.bytes.length : ℤ) = a.declaredSizeBytes ∧
        BytesDigest.sha256 object.bytes = (VerifiedUploads.after pdfUpload).sha256 a.id := by
  intro _ _ _
  have hcommitted : ∃ a ∈ (VerifiedUploads.after pdfUpload).storage.tables.attachments,
      a.quotaState = .committed := by
    decide +kernel
  have hjobs : (VerifiedUploads.after pdfUpload).storage.tables.jobs = [] := by decide +kernel
  obtain ⟨a, ha, hc⟩ := hcommitted
  have hno : ¬ HasJob (VerifiedUploads.after pdfUpload).storage.tables a.objectKey := by
    rintro ⟨job, hjob, -⟩
    rw [hjobs] at hjob
    nomatch hjob
  exact ⟨a, ha, hc, (verified_bytes_stay pdfUpload).1 a ha hc hno⟩

end OpenVac.ChatStorage
