/-
  File:      OpenVac/Chat/VersionReconciliation.lean
  Subject:   One answer for each turn of a conversation: lib/chat-version-reconciliation.ts.

  * `ChatMessage` -- what the reconciliation reads of a message; a message is known by reference,
    so two copies with the same fields are two messages.
  * `group_grouped`, `canonicalByVersion_strongest` -- what the two maps hold after their loops.
  * `selectedCopy_spec` -- the copy shown; `reconcileTurn_spec`.
  * `visible_turn`, `visible_unversioned` -- what is visible of a turn, and of the rest.
  * `reconcile_keeps_one` -- what is visible of any list of messages.
-/
import Mathlib.Algebra.Order.Ring.Rat
import Mathlib.Data.List.Sort
import OpenVac.Agent.AnswerV3
import OpenVac.Lib.JsMap

namespace OpenVac.Chat

open JsString Agent

/-! ## 1. Messages -/

inductive ChatRole where
  | user
  | assistant
  deriving DecidableEq, Repr

inductive ChatStatus where
  | streaming
  | completed
  | incomplete
  | error
  deriving DecidableEq, Repr

/-- What is read of `AnswerMeta`; of an `AnswerV2` only whether there is one. -/
structure AnswerMeta where
  answer : Option Json
  answerV3 : Option AnswerV3
  answerBlocks : Option (List AnswerBlock)
  turnId : Option Text
  answerVersion : Option ℚ

/-- What is read of `ChatMessage`; the identifier is not. -/
structure ChatMessage where
  id : Text
  role : ChatRole
  content : Text
  status : Option ChatStatus
  info : Option AnswerMeta

/-- `message.meta?.answerVersion`. -/
def ChatMessage.answerVersion (message : ChatMessage) : Option ℚ :=
  message.info.bind AnswerMeta.answerVersion

def versionedTurnId (message : ChatMessage) : Option Text :=
  match message.role, message.info.bind AnswerMeta.turnId with
  | .assistant, some turnId =>
      if turnId ≠ [] ∧ message.answerVersion.isSome then some turnId else none
  | _, _ => none

def statusScore : ChatStatus → ℕ
  | .streaming => 0
  | .error => 1
  | .incomplete => 2
  | .completed => 3

def answerScore (message : ChatMessage) : ℕ :=
  if (message.info.bind AnswerMeta.answerV3).isSome then 4
  else if (message.info.bind AnswerMeta.answer).isSome then 3
  else if ((message.info.bind AnswerMeta.answerBlocks).getD []).length ≠ 0 then 2
  else if message.content ≠ [] then 1
  else 0

def messageQuality (message : ChatMessage) : ℕ :=
  statusScore (message.status.getD .streaming) * 10 + answerScore message

/-! ## 2. The reconciliation -/

section Reconciliation

variable {Ref : Type} [DecidableEq Ref] (heap : Ref → ChatMessage)

/-- The turn of the message behind a reference. -/
def turnOf (message : Ref) : Option Text := versionedTurnId (heap message)

def answerVersionOf (message : Ref) : Option ℚ := (heap message).answerVersion

def qualityOf (message : Ref) : ℕ := messageQuality (heap message)

/-- One round of the first loop. -/
def addToGroup (grouped : JsMap Text (List Ref)) (message : Ref) : JsMap Text (List Ref) :=
  match turnOf heap message with
  | none => grouped
  | some turnId => grouped.set turnId ((grouped.get turnId).getD [] ++ [message])

def group (messages : List Ref) : JsMap Text (List Ref) := messages.foldl (addToGroup heap) []

/-- One round of the loop over the candidates of a turn. -/
def keepStronger (canonical : JsMap ℚ Ref) (candidate : Ref) : JsMap ℚ Ref :=
  match answerVersionOf heap candidate with
  | none => canonical
  | some version =>
      match canonical.get version with
      | none => canonical.set version candidate
      | some current =>
          if qualityOf heap current < qualityOf heap candidate then
            canonical.set version candidate
          else canonical

def canonicalByVersion (candidates : List Ref) : JsMap ℚ Ref :=
  candidates.foldl (keepStronger heap) []

structure ReconciledTurn (Ref : Type) where
  selected : Ref
  selectableVersions : List ℚ
  historicalVersions : List Ref

/-- The versions of a turn, in order. -/
def sortedVersions (canonical : JsMap ℚ Ref) : List ℚ := canonical.keys.insertionSort (· ≤ ·)

/-- The copy shown: of the version that is asked for, else of the last one. -/
def selectedCopy (requestedVersion : Option ℚ) (canonical : JsMap ℚ Ref) : Option Ref :=
  (requestedVersion.bind canonical.get).or
    (canonical.get ((sortedVersions canonical).getLast?.getD (-1)))

def reconcileTurn (requestedVersion : Option ℚ) (candidates : List Ref) :
    Option (ReconciledTurn Ref) :=
  let canonical := canonicalByVersion heap candidates
  let versions := sortedVersions canonical
  (selectedCopy requestedVersion canonical).map fun selected =>
    { selected
      selectableVersions := versions.filter fun version =>
        (canonical.get version).any fun message => (heap message).status == some .completed
      historicalVersions := (versions.filterMap canonical.get).filter fun message =>
        message ≠ selected && (heap message).status != some .completed }

/-- One round of the loop over the turns. -/
def addTurn (selectedVersionByTurn : Text → Option ℚ)
    (done : List Ref × JsMap Text (ReconciledTurn Ref)) (entry : Text × List Ref) :
    List Ref × JsMap Text (ReconciledTurn Ref) :=
  match reconcileTurn heap (selectedVersionByTurn entry.1) entry.2 with
  | none => done
  | some turn => (done.1 ++ [turn.selected], done.2.set entry.1 turn)

/-- `reconcileChatMessages(messages, selectedVersionByTurn)`: what is visible, and the turns. -/
def reconcileChatMessages (messages : List Ref) (selectedVersionByTurn : Text → Option ℚ) :
    List Ref × JsMap Text (ReconciledTurn Ref) :=
  let done := (group heap messages).foldl (addTurn heap selectedVersionByTurn) ([], [])
  (messages.filter fun message =>
      (turnOf heap message).isNone || done.1.contains message, done.2)

/-! ## 3. The groups -/

/-- The messages of a turn, in their order. -/
def turnMessages (messages : List Ref) (turnId : Text) : List Ref :=
  messages.filter fun message => turnOf heap message = some turnId

/-- What the first loop has done with these messages. -/
structure Grouped (messages : List Ref) (grouped : JsMap Text (List Ref)) : Prop where
  nodup : grouped.keys.Nodup
  absent : ∀ turnId, grouped.get turnId = none ↔ turnMessages heap messages turnId = []
  held : ∀ turnId candidates, grouped.get turnId = some candidates →
    candidates = turnMessages heap messages turnId

omit [DecidableEq Ref] in
theorem turnMessages_concat (messages : List Ref) (message : Ref) (turnId : Text) :
    turnMessages heap (messages ++ [message]) turnId =
      turnMessages heap messages turnId ++
        if turnOf heap message = some turnId then [message] else [] := by
  unfold turnMessages
  rw [List.filter_append]
  by_cases h : turnOf heap message = some turnId
  · simp [h]
  · simp [h]

omit [DecidableEq Ref] in
theorem grouped_add {messages : List Ref} {grouped : JsMap Text (List Ref)}
    (h : Grouped heap messages grouped) (message : Ref) :
    Grouped heap (messages ++ [message]) (addToGroup heap grouped message) := by
  unfold addToGroup
  cases hturn : turnOf heap message with
  | none =>
    have hsame (turnId : Text) : turnMessages heap (messages ++ [message]) turnId =
        turnMessages heap messages turnId := by
      rw [turnMessages_concat, hturn]
      simp
    refine ⟨h.nodup, fun turnId => ?_, fun turnId candidates hget => ?_⟩
    · rw [hsame]
      exact h.absent turnId
    · rw [hsame]
      exact h.held turnId candidates hget
  | some turnId =>
    have hbefore : (grouped.get turnId).getD [] = turnMessages heap messages turnId := by
      cases hget : grouped.get turnId with
      | none => exact ((h.absent turnId).mp hget).symm
      | some candidates => exact h.held turnId candidates hget
    refine ⟨JsMap.nodup_keys_set h.nodup _ _, fun other => ?_, fun other candidates hget => ?_⟩
    · rw [JsMap.get_set, turnMessages_concat, hturn]
      by_cases hother : turnId = other
      · simp [hother]
      · simp [hother, h.absent other]
    · rw [JsMap.get_set] at hget
      rw [turnMessages_concat, hturn]
      by_cases hother : turnId = other
      · subst hother
        rw [if_pos rfl, hbefore] at hget
        cases hget
        rw [if_pos rfl]
      · rw [if_neg hother] at hget
        rw [if_neg fun heq => hother (Option.some.inj heq), List.append_nil]
        exact h.held other candidates hget

omit [DecidableEq Ref] in
/-- **The groups are the messages of the turns.** -/
theorem group_grouped (messages : List Ref) : Grouped heap messages (group heap messages) := by
  induction messages using List.reverseRecOn with
  | nil => exact ⟨List.nodup_nil, fun _ => ⟨fun _ => rfl, fun _ => rfl⟩, fun _ _ h => (nomatch h)⟩
  | append_singleton messages message ih =>
    unfold group at ih ⊢
    rw [List.foldl_append]
    exact grouped_add heap ih message

/-! ## 4. The copies of a version -/

/-- What the loop over the candidates has kept of them. -/
structure Strongest (candidates : List Ref) (canonical : JsMap ℚ Ref) : Prop where
  absent : ∀ version, canonical.get version = none ↔
    ∀ copy ∈ candidates, answerVersionOf heap copy ≠ some version
  kept : ∀ version copy, canonical.get version = some copy →
    copy ∈ candidates ∧ answerVersionOf heap copy = some version ∧
      ∀ other ∈ candidates, answerVersionOf heap other = some version →
        qualityOf heap other ≤ qualityOf heap copy

omit [DecidableEq Ref] in
/-- The candidate is the copy that is kept of its version. -/
theorem strongest_set {candidates : List Ref} {canonical : JsMap ℚ Ref} {candidate : Ref}
    {version : ℚ} (h : Strongest heap candidates canonical)
    (hversion : answerVersionOf heap candidate = some version)
    (hstronger : ∀ other ∈ candidates, answerVersionOf heap other = some version →
      qualityOf heap other ≤ qualityOf heap candidate) :
    Strongest heap (candidates ++ [candidate]) (canonical.set version candidate) := by
  refine ⟨fun other => ?_, fun other copy hget => ?_⟩
  · rw [JsMap.get_set]
    by_cases hother : version = other
    · subst hother
      simp [hversion]
    · rw [if_neg hother, h.absent]
      simp [hversion, hother, or_imp, forall_and]
  · rw [JsMap.get_set] at hget
    by_cases hother : version = other
    · subst hother
      rw [if_pos rfl] at hget
      cases hget
      refine ⟨by simp, hversion, fun copy hcopy hcopyVersion => ?_⟩
      rcases List.mem_append.mp hcopy with hcopy | hcopy
      · exact hstronger copy hcopy hcopyVersion
      · rw [List.mem_singleton.mp hcopy]
    · rw [if_neg hother] at hget
      obtain ⟨hmem, hcopyVersion, hbest⟩ := h.kept other copy hget
      refine ⟨List.mem_append_left _ hmem, hcopyVersion, fun third hthird hthirdVersion => ?_⟩
      rcases List.mem_append.mp hthird with hthird | hthird
      · exact hbest third hthird hthirdVersion
      · rw [List.mem_singleton.mp hthird, hversion] at hthirdVersion
        exact absurd (Option.some.inj hthirdVersion) hother

omit [DecidableEq Ref] in
/-- The candidate has no version, or is no better than the copy kept of it. -/
theorem strongest_skip {candidates : List Ref} {canonical : JsMap ℚ Ref} {candidate : Ref}
    (h : Strongest heap candidates canonical)
    (hweaker : ∀ version, answerVersionOf heap candidate = some version →
      ∃ current, canonical.get version = some current ∧
        qualityOf heap candidate ≤ qualityOf heap current) :
    Strongest heap (candidates ++ [candidate]) canonical := by
  refine ⟨fun version => ?_, fun version copy hget => ?_⟩
  · constructor
    · intro hnone copy hcopy hversion
      rcases List.mem_append.mp hcopy with hcopy | hcopy
      · exact (h.absent version).mp hnone copy hcopy hversion
      · rw [List.mem_singleton.mp hcopy] at hversion
        obtain ⟨current, hcurrent, -⟩ := hweaker version hversion
        rw [hnone] at hcurrent
        cases hcurrent
    · intro hnone
      exact (h.absent version).mpr fun copy hcopy => hnone copy (List.mem_append_left _ hcopy)
  · obtain ⟨hmem, hversion, hbest⟩ := h.kept version copy hget
    refine ⟨List.mem_append_left _ hmem, hversion, fun other hother hotherVersion => ?_⟩
    rcases List.mem_append.mp hother with hother | hother
    · exact hbest other hother hotherVersion
    · rw [List.mem_singleton.mp hother] at hotherVersion ⊢
      obtain ⟨current, hcurrent, hle⟩ := hweaker version hotherVersion
      rw [hget] at hcurrent
      cases hcurrent
      exact hle

omit [DecidableEq Ref] in
theorem strongest_step {candidates : List Ref} {canonical : JsMap ℚ Ref}
    (h : Strongest heap candidates canonical) (candidate : Ref) :
    Strongest heap (candidates ++ [candidate]) (keepStronger heap canonical candidate) := by
  unfold keepStronger
  cases hversion : answerVersionOf heap candidate with
  | none =>
    refine strongest_skip heap h fun version hsome => ?_
    rw [hversion] at hsome
    cases hsome
  | some version =>
    cases hcurrent : canonical.get version with
    | none =>
      simp only [hcurrent]
      refine strongest_set heap h hversion fun other hother hotherVersion => ?_
      exact absurd hotherVersion ((h.absent version).mp hcurrent other hother)
    | some current =>
      by_cases hlt : qualityOf heap current < qualityOf heap candidate
      · simp only [hcurrent, if_pos hlt]
        refine strongest_set heap h hversion fun other hother hotherVersion => ?_
        exact ((h.kept version current hcurrent).2.2 other hother hotherVersion).trans hlt.le
      · simp only [hcurrent, if_neg hlt]
        refine strongest_skip heap h fun other hother => ?_
        rw [hversion] at hother
        cases hother
        exact ⟨current, hcurrent, not_lt.mp hlt⟩

omit [DecidableEq Ref] in
/-- **Of each version the loop keeps a copy of maximal quality.** -/
theorem canonicalByVersion_strongest (candidates : List Ref) :
    Strongest heap candidates (canonicalByVersion heap candidates) := by
  induction candidates using List.reverseRecOn with
  | nil => exact ⟨fun _ => ⟨fun _ _ h => (nomatch h), fun _ => rfl⟩, fun _ _ h => (nomatch h)⟩
  | append_singleton candidates candidate ih =>
    unfold canonicalByVersion at ih ⊢
    rw [List.foldl_append]
    exact strongest_step heap ih candidate

/-! ## 5. A turn -/

/-- The turn has a copy of this version. -/
def HasVersion (messages : List Ref) (turnId : Text) (version : ℚ) : Prop :=
  ∃ copy ∈ messages, turnOf heap copy = some turnId ∧ answerVersionOf heap copy = some version

/-- A copy of this version of the turn, of maximal quality among its copies. -/
structure KeptCopy (messages : List Ref) (turnId : Text) (version : ℚ) (copy : Ref) : Prop where
  mem : copy ∈ messages
  turn : turnOf heap copy = some turnId
  version_eq : answerVersionOf heap copy = some version
  maximal : ∀ other ∈ messages, turnOf heap other = some turnId →
    answerVersionOf heap other = some version → qualityOf heap other ≤ qualityOf heap copy

/-- The version that is asked for if the turn has it, else the last one it has. -/
def ShownVersion (messages : List Ref) (turnId : Text) (requestedVersion : Option ℚ)
    (version : ℚ) : Prop :=
  HasVersion heap messages turnId version ∧
    (requestedVersion = some version ∨
      (∀ asked, requestedVersion = some asked → ¬ HasVersion heap messages turnId asked) ∧
        ∀ other, HasVersion heap messages turnId other → other ≤ version)

/-- The copy that is kept of a version of the turn. -/
def keptCopy (messages : List Ref) (turnId : Text) (version : ℚ) : Option Ref :=
  (canonicalByVersion heap (turnMessages heap messages turnId)).get version

omit [DecidableEq Ref] in
theorem mem_turnMessages {messages : List Ref} {turnId : Text} {message : Ref} :
    message ∈ turnMessages heap messages turnId ↔
      message ∈ messages ∧ turnOf heap message = some turnId := by
  unfold turnMessages
  rw [List.mem_filter, decide_eq_true_iff]

omit [DecidableEq Ref] in
theorem keptCopy_some {messages : List Ref} {turnId : Text} {version : ℚ} {copy : Ref}
    (h : keptCopy heap messages turnId version = some copy) :
    KeptCopy heap messages turnId version copy := by
  obtain ⟨hmem, hversion, hbest⟩ := (canonicalByVersion_strongest heap _).kept version copy h
  obtain ⟨hmem, hturn⟩ := (mem_turnMessages heap).mp hmem
  exact ⟨hmem, hturn, hversion, fun other hother hotherTurn hotherVersion =>
    hbest other ((mem_turnMessages heap).mpr ⟨hother, hotherTurn⟩) hotherVersion⟩

omit [DecidableEq Ref] in
theorem hasVersion_iff {messages : List Ref} {turnId : Text} {version : ℚ} :
    HasVersion heap messages turnId version ↔
      ∃ copy, keptCopy heap messages turnId version = some copy := by
  constructor
  · rintro ⟨copy, hmem, hturn, hversion⟩
    refine Option.ne_none_iff_exists'.mp fun hnone => ?_
    exact ((canonicalByVersion_strongest heap _).absent version).mp hnone copy
      ((mem_turnMessages heap).mpr ⟨hmem, hturn⟩) hversion
  · rintro ⟨copy, hcopy⟩
    have hkept := keptCopy_some heap hcopy
    exact ⟨copy, hkept.mem, hkept.turn, hkept.version_eq⟩

omit [DecidableEq Ref] in
/-- The last of the sorted versions is one of them, and the greatest. -/
theorem getLast_sortedVersions {canonical : JsMap ℚ Ref} (h : canonical.keys ≠ []) :
    ∃ version, (sortedVersions canonical).getLast? = some version ∧ version ∈ canonical.keys ∧
      ∀ other ∈ canonical.keys, other ≤ version := by
  have hperm := List.perm_insertionSort (· ≤ ·) canonical.keys
  have hne : sortedVersions canonical ≠ [] :=
    fun hnil => h (hperm.symm.trans (hnil ▸ .refl _)).eq_nil
  have hlast := List.getLast?_eq_some_getLast hne
  refine ⟨_, hlast, hperm.mem_iff.mp (List.getLast_mem hne), fun other hother => ?_⟩
  have hsplit := List.dropLast_append_getLast hne
  have hsorted : (sortedVersions canonical).Pairwise (· ≤ ·) :=
    List.pairwise_insertionSort (· ≤ ·) _
  have hother' : other ∈ sortedVersions canonical := hperm.mem_iff.mpr hother
  rw [← hsplit] at hsorted hother'
  rcases List.mem_append.mp hother' with hinit | hend
  · exact (List.pairwise_append.mp hsorted).2.2 other hinit _ (List.mem_singleton_self _)
  · exact (List.mem_singleton.mp hend).le

omit [DecidableEq Ref] in
theorem answerVersionOf_turn {message : Ref} {turnId : Text} (h : turnOf heap message = some turnId) :
    ∃ version, answerVersionOf heap message = some version := by
  unfold turnOf versionedTurnId at h
  split at h
  · split at h
    · next hversion => exact Option.isSome_iff_exists.mp hversion.2
    · cases h
  · cases h

omit [DecidableEq Ref] in
/-- **The copy shown** is the kept copy of the version to show. -/
theorem selectedCopy_spec {messages : List Ref} {turnId : Text}
    (h : turnMessages heap messages turnId ≠ []) (requestedVersion : Option ℚ) :
    ∃ version copy,
      selectedCopy requestedVersion
          (canonicalByVersion heap (turnMessages heap messages turnId)) = some copy ∧
        ShownVersion heap messages turnId requestedVersion version ∧
        keptCopy heap messages turnId version = some copy := by
  have hkey (version : ℚ) : HasVersion heap messages turnId version ↔
      version ∈ (canonicalByVersion heap (turnMessages heap messages turnId)).keys := by
    rw [hasVersion_iff, ← Option.ne_none_iff_exists', keptCopy, Ne, JsMap.get_eq_none_iff, not_not]
  -- a message of the turn has a version, so there is a last one
  have hkeys : (canonicalByVersion heap (turnMessages heap messages turnId)).keys ≠ [] := by
    obtain ⟨message, hmessage⟩ := List.exists_mem_of_ne_nil _ h
    obtain ⟨hmem, hturn⟩ := (mem_turnMessages heap).mp hmessage
    obtain ⟨version, hversion⟩ := answerVersionOf_turn heap hturn
    exact List.ne_nil_of_mem ((hkey version).mp ⟨message, hmem, hturn, hversion⟩)
  obtain ⟨last, hlast, hmemLast, hgreatest⟩ := getLast_sortedVersions hkeys
  obtain ⟨lastCopy, hlastCopy⟩ := (hasVersion_iff heap).mp ((hkey last).mpr hmemLast)
  have hgreatest' (other : ℚ) (hother : HasVersion heap messages turnId other) : other ≤ last :=
    hgreatest other ((hkey other).mp hother)
  unfold selectedCopy
  rw [hlast, Option.getD_some]
  cases hrequested : requestedVersion with
  | none =>
    exact ⟨last, lastCopy, hlastCopy,
      ⟨(hkey last).mpr hmemLast, Or.inr ⟨fun _ hasked => (nomatch hasked), hgreatest'⟩⟩,
      hlastCopy⟩
  | some asked =>
    cases hasked : keptCopy heap messages turnId asked with
    | some copy =>
      refine ⟨asked, copy, ?_, ⟨(hasVersion_iff heap).mpr ⟨copy, hasked⟩, Or.inl rfl⟩, hasked⟩
      rw [Option.bind_some, show JsMap.get _ asked = some copy from hasked]
      rfl
    | none =>
      refine ⟨last, lastCopy, ?_, ⟨(hkey last).mpr hmemLast, Or.inr ⟨?_, hgreatest'⟩⟩,
        hlastCopy⟩
      · rw [Option.bind_some, show JsMap.get _ asked = none from hasked]
        exact hlastCopy
      · intro other hother hversion
        cases hother
        obtain ⟨copy, hcopy⟩ := (hasVersion_iff heap).mp hversion
        rw [hasked] at hcopy
        cases hcopy

/-! ## 6. All turns -/

/-- What the loop over the turns has done with these entries. -/
structure TurnsDone (selectedVersionByTurn : Text → Option ℚ) (entries : JsMap Text (List Ref))
    (done : List Ref × JsMap Text (ReconciledTurn Ref)) : Prop where
  selected : ∀ message, message ∈ done.1 ↔ ∃ turnId candidates turn,
    (turnId, candidates) ∈ entries ∧
      reconcileTurn heap (selectedVersionByTurn turnId) candidates = some turn ∧
      message = turn.selected
  turns : ∀ turnId, done.2.get turnId =
    (entries.get turnId).bind (reconcileTurn heap (selectedVersionByTurn turnId))

theorem turnsDone_add {selectedVersionByTurn : Text → Option ℚ} {entries : JsMap Text (List Ref)}
    {done : List Ref × JsMap Text (ReconciledTurn Ref)}
    (h : TurnsDone heap selectedVersionByTurn entries done) {turnId : Text}
    (hnew : turnId ∉ entries.keys) (candidates : List Ref) :
    TurnsDone heap selectedVersionByTurn (entries ++ [(turnId, candidates)])
      (addTurn heap selectedVersionByTurn done (turnId, candidates)) := by
  have hget (other : Text) : (JsMap.get (entries ++ [(turnId, candidates)]) other) =
      if turnId = other then some candidates else entries.get other := by
    rw [JsMap.get_append, JsMap.get_cons, JsMap.get_nil]
    by_cases hother : turnId = other
    · subst hother
      rw [JsMap.get_eq_none_iff.mpr hnew, if_pos rfl]
      rfl
    · rw [if_neg hother, if_neg hother, Option.or_none]
  unfold addTurn
  cases hturn : reconcileTurn heap (selectedVersionByTurn turnId) candidates with
  | none =>
    simp only
    refine ⟨fun message => ?_, fun other => ?_⟩
    · rw [h.selected]
      constructor
      · rintro ⟨other, others, turn, hmem, hother, rfl⟩
        exact ⟨other, others, turn, List.mem_append_left _ hmem, hother, rfl⟩
      · rintro ⟨other, others, turn, hmem, hother, rfl⟩
        rcases List.mem_append.mp hmem with hmem | hmem
        · exact ⟨other, others, turn, hmem, hother, rfl⟩
        · cases List.mem_singleton.mp hmem
          rw [hturn] at hother
          cases hother
    · rw [hget, h.turns]
      by_cases hother : turnId = other
      · subst hother
        rw [if_pos rfl, Option.bind_some, hturn, JsMap.get_eq_none_iff.mpr hnew]
        rfl
      · rw [if_neg hother]
  | some turn =>
    simp only
    refine ⟨fun message => ?_, fun other => ?_⟩
    · rw [List.mem_append, h.selected, List.mem_singleton]
      constructor
      · rintro (⟨other, others, turn, hmem, hother, rfl⟩ | rfl)
        · exact ⟨other, others, turn, List.mem_append_left _ hmem, hother, rfl⟩
        · exact ⟨turnId, candidates, turn, List.mem_append_right _ (List.mem_singleton_self _),
            hturn, rfl⟩
      · rintro ⟨other, others, turn', hmem, hother, rfl⟩
        rcases List.mem_append.mp hmem with hmem | hmem
        · exact Or.inl ⟨other, others, turn', hmem, hother, rfl⟩
        · cases List.mem_singleton.mp hmem
          rw [hturn] at hother
          cases hother
          exact Or.inr rfl
    · rw [hget, JsMap.get_set, h.turns]
      by_cases hother : turnId = other
      · subst hother
        rw [if_pos rfl, if_pos rfl, Option.bind_some, hturn]
      · rw [if_neg hother, if_neg hother]

theorem foldl_addTurn {selectedVersionByTurn : Text → Option ℚ} {entries : JsMap Text (List Ref)}
    (h : entries.keys.Nodup) :
    TurnsDone heap selectedVersionByTurn entries
      (entries.foldl (addTurn heap selectedVersionByTurn) ([], [])) := by
  induction entries using List.reverseRecOn with
  | nil =>
    refine ⟨fun message => ⟨fun hmem => (nomatch hmem), ?_⟩, fun _ => rfl⟩
    rintro ⟨_, _, _, hmem, -⟩
    cases hmem
  | append_singleton entries entry ih =>
    obtain ⟨turnId, candidates⟩ := entry
    have hkeys : JsMap.keys (entries ++ [(turnId, candidates)]) =
        JsMap.keys entries ++ [turnId] := List.map_append
    rw [hkeys] at h
    obtain ⟨hentries, -, hdisjoint⟩ := List.nodup_append.mp h
    have hnew : turnId ∉ JsMap.keys entries := fun hmem =>
      hdisjoint turnId hmem turnId (List.mem_singleton_self _) rfl
    rw [List.foldl_append]
    exact turnsDone_add heap (ih hentries) hnew candidates

/-! ## 7. What is visible -/

/-- What becomes of a turn. -/
structure TurnReconciled (messages visible : List Ref) (requestedVersion : Option ℚ)
    (turnId : Text) (turn : ReconciledTurn Ref) : Prop where
  /-- One message of the turn is visible, wherever it stands in the list. -/
  one_visible : visible.filter (fun message => turnOf heap message = some turnId) =
    List.replicate (messages.count turn.selected) turn.selected
  shown : ∃ version, ShownVersion heap messages turnId requestedVersion version ∧
    keptCopy heap messages turnId version = some turn.selected
  kept : ∀ version, HasVersion heap messages turnId version →
    ∃ copy, keptCopy heap messages turnId version = some copy ∧
      KeptCopy heap messages turnId version copy
  selectable : ∀ version ∈ turn.selectableVersions,
    ∃ copy, keptCopy heap messages turnId version = some copy ∧
      (heap copy).status = some .completed
  historical : ∀ copy ∈ turn.historicalVersions, copy ≠ turn.selected ∧
    ∃ version, keptCopy heap messages turnId version = some copy

/-- The turn as its candidates give it. -/
theorem reconcileTurn_spec {messages : List Ref} {turnId : Text}
    (h : turnMessages heap messages turnId ≠ []) (requestedVersion : Option ℚ) :
    ∃ turn, reconcileTurn heap requestedVersion (turnMessages heap messages turnId) = some turn ∧
      (∃ version, ShownVersion heap messages turnId requestedVersion version ∧
        keptCopy heap messages turnId version = some turn.selected) ∧
      (∀ version ∈ turn.selectableVersions,
        ∃ copy, keptCopy heap messages turnId version = some copy ∧
          (heap copy).status = some .completed) ∧
      ∀ copy ∈ turn.historicalVersions, copy ≠ turn.selected ∧
        ∃ version, keptCopy heap messages turnId version = some copy := by
  obtain ⟨version, copy, hselected, hshown, hkept⟩ := selectedCopy_spec heap h requestedVersion
  simp only [reconcileTurn, hselected, Option.map_some]
  refine ⟨_, rfl, ⟨version, hshown, hkept⟩, fun other hother => ?_, fun other hother => ?_⟩
  · have hany := (List.mem_filter.mp hother).2
    obtain ⟨kept, hcopy, hstatus⟩ := (Option.any_eq_true _ _).mp hany
    exact ⟨kept, hcopy, eq_of_beq hstatus⟩
  · obtain ⟨hmem, hne⟩ := List.mem_filter.mp hother
    obtain ⟨otherVersion, -, hother⟩ := List.mem_filterMap.mp hmem
    exact ⟨of_decide_eq_true (Bool.and_eq_true_iff.mp hne).1, otherVersion, hother⟩

theorem turns_get (messages : List Ref) (selectedVersionByTurn : Text → Option ℚ)
    (turnId : Text) :
    (reconcileChatMessages heap messages selectedVersionByTurn).2.get turnId =
      if turnMessages heap messages turnId = [] then none
      else
        reconcileTurn heap (selectedVersionByTurn turnId) (turnMessages heap messages turnId) := by
  have hgroups := group_grouped heap messages
  unfold reconcileChatMessages
  rw [(foldl_addTurn heap hgroups.nodup).turns]
  by_cases hnil : turnMessages heap messages turnId = []
  · rw [if_pos hnil, (hgroups.absent turnId).mpr hnil]
    rfl
  · rw [if_neg hnil]
    cases hget : (group heap messages).get turnId with
    | none => exact absurd ((hgroups.absent turnId).mp hget) hnil
    | some candidates =>
      rw [Option.bind_some, hgroups.held turnId candidates hget]

/-- What the turns say of the visible messages. -/
theorem visible_iff {messages : List Ref} {selectedVersionByTurn : Text → Option ℚ}
    {message : Ref} (hmem : message ∈ messages) :
    message ∈ (reconcileChatMessages heap messages selectedVersionByTurn).1 ↔
      turnOf heap message = none ∨ ∃ turnId turn,
        (reconcileChatMessages heap messages selectedVersionByTurn).2.get turnId = some turn ∧
          message = turn.selected := by
  have hgroups := group_grouped heap messages
  have hdone : TurnsDone heap selectedVersionByTurn (group heap messages) _ :=
    foldl_addTurn heap hgroups.nodup
  unfold reconcileChatMessages
  simp only [List.mem_filter, hmem, true_and, Bool.or_eq_true, Option.isNone_iff_eq_none,
    List.contains_iff_mem, hdone.selected, hdone.turns]
  refine or_congr_right ⟨?_, ?_⟩
  · rintro ⟨turnId, candidates, turn, hentry, hturn, rfl⟩
    rw [JsMap.mem_iff_get hgroups.nodup] at hentry
    exact ⟨turnId, turn, by rw [hentry, Option.bind_some, hturn], rfl⟩
  · rintro ⟨turnId, turn, hturn, rfl⟩
    obtain ⟨candidates, hentry, hturn⟩ := Option.bind_eq_some_iff.mp hturn
    exact ⟨turnId, candidates, turn, (JsMap.mem_iff_get hgroups.nodup).mpr hentry, hturn, rfl⟩

theorem visible_sublist (messages : List Ref) (selectedVersionByTurn : Text → Option ℚ) :
    (reconcileChatMessages heap messages selectedVersionByTurn).1.Sublist messages :=
  List.filter_sublist

/-- **What is in no versioned turn stays in its place.** -/
theorem visible_unversioned (messages : List Ref) (selectedVersionByTurn : Text → Option ℚ) :
    (reconcileChatMessages heap messages selectedVersionByTurn).1.filter
        (fun message => turnOf heap message = none) =
      messages.filter (fun message => turnOf heap message = none) := by
  unfold reconcileChatMessages
  rw [List.filter_filter]
  refine List.filter_congr fun message _ => ?_
  by_cases h : turnOf heap message = none
  · simp [h]
  · simp [h]

/-- The turns are those of the messages. -/
theorem turns_get_iff {messages : List Ref} {selectedVersionByTurn : Text → Option ℚ}
    {turnId : Text} :
    (∃ message ∈ messages, turnOf heap message = some turnId) ↔
      ∃ turn,
        (reconcileChatMessages heap messages selectedVersionByTurn).2.get turnId = some turn := by
  rw [turns_get]
  constructor
  · rintro ⟨message, hmem, hturn⟩
    have hne : turnMessages heap messages turnId ≠ [] :=
      List.ne_nil_of_mem ((mem_turnMessages heap).mpr ⟨hmem, hturn⟩)
    obtain ⟨turn, hget, -⟩ := reconcileTurn_spec heap hne (selectedVersionByTurn turnId)
    exact ⟨turn, by rw [if_neg hne, hget]⟩
  · rintro ⟨turn, hget⟩
    by_cases hnil : turnMessages heap messages turnId = []
    · rw [if_pos hnil] at hget
      cases hget
    · obtain ⟨message, hmessage⟩ := List.exists_mem_of_ne_nil _ hnil
      exact ⟨message, (mem_turnMessages heap).mp hmessage⟩

theorem turns_get_spec {messages : List Ref} {selectedVersionByTurn : Text → Option ℚ}
    {turnId : Text} {turn : ReconciledTurn Ref}
    (h : (reconcileChatMessages heap messages selectedVersionByTurn).2.get turnId = some turn) :
    (∃ version, ShownVersion heap messages turnId (selectedVersionByTurn turnId) version ∧
        keptCopy heap messages turnId version = some turn.selected) ∧
      (∀ version ∈ turn.selectableVersions,
        ∃ copy, keptCopy heap messages turnId version = some copy ∧
          (heap copy).status = some .completed) ∧
      ∀ copy ∈ turn.historicalVersions, copy ≠ turn.selected ∧
        ∃ version, keptCopy heap messages turnId version = some copy := by
  rw [turns_get] at h
  by_cases hnil : turnMessages heap messages turnId = []
  · rw [if_pos hnil] at h
    cases h
  · obtain ⟨other, hother, hspec⟩ := reconcileTurn_spec heap hnil (selectedVersionByTurn turnId)
    rw [if_neg hnil, hother] at h
    cases h
    exact hspec

/-- **Of a versioned turn one message is visible.** -/
theorem visible_turn {messages : List Ref} {selectedVersionByTurn : Text → Option ℚ}
    {turnId : Text} {turn : ReconciledTurn Ref}
    (h : (reconcileChatMessages heap messages selectedVersionByTurn).2.get turnId = some turn) :
    (reconcileChatMessages heap messages selectedVersionByTurn).1.filter
        (fun message => turnOf heap message = some turnId) =
      List.replicate (messages.count turn.selected) turn.selected := by
  have hselected {other : Text} {shown : ReconciledTurn Ref}
      (hother : (reconcileChatMessages heap messages selectedVersionByTurn).2.get other =
        some shown) : turnOf heap shown.selected = some other := by
    obtain ⟨⟨version, -, hkept⟩, -⟩ := turns_get_spec heap hother
    exact (keptCopy_some heap hkept).turn
  have hvisible : ∀ message ∈ messages,
      ((turnOf heap message = some turnId ∧
        message ∈ (reconcileChatMessages heap messages selectedVersionByTurn).1) ↔
          message = turn.selected) := by
    intro message hmem
    rw [visible_iff heap hmem]
    constructor
    · rintro ⟨hturn, hnone | ⟨other, shown, hother, rfl⟩⟩
      · rw [hturn] at hnone
        cases hnone
      · rw [hselected hother] at hturn
        cases hturn
        rw [h] at hother
        cases hother
        rfl
    · rintro rfl
      exact ⟨hselected h, Or.inr ⟨turnId, turn, h, rfl⟩⟩
  rw [← List.filter_beq]
  have hfilter : (reconcileChatMessages heap messages selectedVersionByTurn).1 =
      messages.filter fun message =>
        message ∈ (reconcileChatMessages heap messages selectedVersionByTurn).1 :=
    List.filter_congr fun message hmem => by
      rw [Bool.eq_iff_iff]
      simp [reconcileChatMessages, hmem]
  rw [hfilter, List.filter_filter]
  refine List.filter_congr fun message hmem => ?_
  rw [← Bool.decide_and, Bool.eq_iff_iff, decide_eq_true_iff, beq_iff_eq]
  exact hvisible message hmem

/-- **One answer for each turn.** Of a list of messages every message outside the versioned turns
    stays, in its place; of each versioned turn one message stays, that of the version asked for
    or else of the last one, and of every version a copy of maximal quality is kept. -/
theorem reconcile_keeps_one (messages : List Ref) (selectedVersionByTurn : Text → Option ℚ) :
    let result := reconcileChatMessages heap messages selectedVersionByTurn
    result.1.Sublist messages ∧
      result.1.filter (fun message => turnOf heap message = none) =
        messages.filter (fun message => turnOf heap message = none) ∧
      (∀ turnId, (∃ message ∈ messages, turnOf heap message = some turnId) ↔
        ∃ turn, result.2.get turnId = some turn) ∧
      ∀ turnId turn, result.2.get turnId = some turn →
        TurnReconciled heap messages result.1 (selectedVersionByTurn turnId) turnId turn ∧
          (messages.Nodup →
            result.1.filter (fun message => turnOf heap message = some turnId) =
              [turn.selected]) := by
  intro result
  refine ⟨visible_sublist heap messages selectedVersionByTurn,
    visible_unversioned heap messages selectedVersionByTurn, fun _ => turns_get_iff heap, ?_⟩
  intro turnId turn hturn
  obtain ⟨hshown, hselectable, hhistorical⟩ := turns_get_spec heap hturn
  have hvisible := visible_turn heap hturn
  refine ⟨⟨hvisible, hshown, fun version hversion => ?_, hselectable, hhistorical⟩,
    fun hnodup => ?_⟩
  · obtain ⟨copy, hcopy⟩ := (hasVersion_iff heap).mp hversion
    exact ⟨copy, hcopy, keptCopy_some heap hcopy⟩
  · obtain ⟨version, -, hkept⟩ := hshown
    have hcount : messages.count turn.selected = 1 :=
      List.count_eq_one_of_mem hnodup (keptCopy_some heap hkept).mem
    rw [hvisible, hcount]
    rfl

end Reconciliation

end OpenVac.Chat
