/-
  File:      OpenVac/Knowledge/RankFusion.lean
  Subject:   Fusing two ranked lists: `reciprocalRankFusion` of server/knowledge/retrieval.ts.

  * Numbers are exact rationals; the order of ids is the host's `localeCompare`.
  * `fusion` -- the fused entries as they should be: each id once, with its best ranks.
  * `Fuses` -- what the map holds after part of the two lists.
  * `reciprocalRankFusion_spec` -- ids, scores and order of the result, and when the order of
    presentation does not matter.
-/
import Mathlib.Data.List.Sort
import Mathlib.Tactic.Ring
import OpenVac.Lib.JsMap
import OpenVac.Lib.JsString
import OpenVac.Lib.StableSort

namespace OpenVac.Knowledge

open JsString

/-! ## 1. The fusion -/

/-- `left.localeCompare(right)` of the host. -/
class LocaleCompare where
  localeCompare : Text → Text → Ordering

def DEFAULT_RRF_K : ℚ := 60

structure RankedRetrievalItem (α : Type) where
  item : α
  rank : ℚ
  deriving DecidableEq, Repr

structure FusedRetrievalItem (α : Type) where
  item : α
  score : ℚ
  vectorRank : Option ℚ
  lexicalRank : Option ℚ
  deriving DecidableEq, Repr

/-- The field of a rank. -/
inductive RankKind where
  | vectorRank
  | lexicalRank
  deriving DecidableEq, Repr

namespace FusedRetrievalItem

variable {α : Type}

/-- `current[kind]`. -/
def rank (current : FusedRetrievalItem α) : RankKind → Option ℚ
  | .vectorRank => current.vectorRank
  | .lexicalRank => current.lexicalRank

/-- `current[kind] = rank`. -/
def setRank (current : FusedRetrievalItem α) (kind : RankKind) (rank : ℚ) : FusedRetrievalItem α :=
  match kind with
  | .vectorRank => { current with vectorRank := some rank }
  | .lexicalRank => { current with lexicalRank := some rank }

end FusedRetrievalItem

section Model

variable {α : Type}

/-- One entry of a list: a better rank of its id takes the place of the one before. -/
def addEntry (identify : α → Text) (k : ℚ) (kind : RankKind)
    (fused : JsMap Text (FusedRetrievalItem α)) (entry : RankedRetrievalItem α) :
    Except String (JsMap Text (FusedRetrievalItem α)) :=
  if entry.rank.den ≠ 1 ∨ entry.rank < 1 then
    .error "Retrieval ranks must be positive integers."
  else
    let key := identify entry.item
    let current := (fused.get key).getD ⟨entry.item, 0, none, none⟩
    let updated : FusedRetrievalItem α :=
      match current.rank kind with
      | none =>
          { current.setRank kind entry.rank with score := current.score + 1 / (k + entry.rank) }
      | some previousRank =>
          if entry.rank < previousRank then
            { current.setRank kind entry.rank with
              score := current.score - 1 / (k + previousRank) + 1 / (k + entry.rank) }
          else current
    .ok (fused.set key updated)

variable [LocaleCompare]

/-- The comparison of the sort: `right.score - left.score`, then the ids. -/
def compareFused (identify : α → Text) (left right : FusedRetrievalItem α) : Ordering :=
  if right.score < left.score then .lt
  else if left.score < right.score then .gt
  else LocaleCompare.localeCompare (identify left.item) (identify right.item)

/-- The stable sort of the fused values. -/
def sortFused (identify : α → Text) (values : List (FusedRetrievalItem α)) :
    List (FusedRetrievalItem α) :=
  values.insertionSort fun left right => compareFused identify left right ≠ .gt

def reciprocalRankFusion (vectorResults lexicalResults : List (RankedRetrievalItem α))
    (identify : α → Text) (k : ℚ) : Except String (List (FusedRetrievalItem α)) :=
  if k ≤ 0 then .error "RRF k must be a positive finite number."
  else do
    let fused ← vectorResults.foldlM (addEntry identify k .vectorRank) []
    let fused ← lexicalResults.foldlM (addEntry identify k .lexicalRank) fused
    pure (sortFused identify fused.values)

end Model

/-! ## 2. The fused entries as they should be -/

section Abstract

variable {α : Type} (identify : α → Text) (k : ℚ)

/-- The ids of a list's entries. -/
def ids (entries : List (RankedRetrievalItem α)) : List Text :=
  entries.map fun entry => identify entry.item

/-- The best rank of an id in a list. -/
def bestRank (entries : List (RankedRetrievalItem α)) (id : Text) : Option ℚ :=
  ((entries.filter fun entry => identify entry.item == id).map (·.rank)).min?

/-- What a list adds to the score of an id. -/
def share : Option ℚ → ℚ
  | none => 0
  | some rank => 1 / (k + rank)

/-- The sum over the lists in which the id occurs. -/
def fusedScore (vectorResults lexicalResults : List (RankedRetrievalItem α)) (id : Text) : ℚ :=
  share k (bestRank identify vectorResults id) + share k (bestRank identify lexicalResults id)

/-- The item that comes first among those of an id. -/
def firstItem (entries : List (RankedRetrievalItem α)) (id : Text) : Option α :=
  (entries.find? fun entry => identify entry.item == id).map (·.item)

/-- The fused entry of an id. -/
def fusedEntry (vectorResults lexicalResults : List (RankedRetrievalItem α)) (id : Text) :
    Option (FusedRetrievalItem α) :=
  (firstItem identify (vectorResults ++ lexicalResults) id).map fun item =>
    ⟨item, fusedScore identify k vectorResults lexicalResults id,
      bestRank identify vectorResults id, bestRank identify lexicalResults id⟩

/-- The ids in the order in which they come first. -/
def fusedIds (vectorResults lexicalResults : List (RankedRetrievalItem α)) : List Text :=
  (ids identify (vectorResults ++ lexicalResults)).eraseDups

/-- **The fused entries**, before they are sorted. -/
def fusion (vectorResults lexicalResults : List (RankedRetrievalItem α)) :
    List (FusedRetrievalItem α) :=
  (fusedIds identify vectorResults lexicalResults).filterMap
    (fusedEntry identify k vectorResults lexicalResults)

/-- The ranks are positive integers. -/
def ValidRanks (entries : List (RankedRetrievalItem α)) : Prop :=
  ∀ entry ∈ entries, entry.rank.den = 1 ∧ 1 ≤ entry.rank

end Abstract

section Lemmas

variable {α : Type} {identify : α → Text} {k : ℚ}

theorem ids_append (left right : List (RankedRetrievalItem α)) :
    ids identify (left ++ right) = ids identify left ++ ids identify right := by
  unfold ids
  exact List.map_append

theorem bestRank_eq_none_iff {entries : List (RankedRetrievalItem α)} {id : Text} :
    bestRank identify entries id = none ↔ id ∉ ids identify entries := by
  unfold bestRank ids
  rw [List.min?_eq_none_iff, List.map_eq_nil_iff, List.filter_eq_nil_iff, List.mem_map, not_exists]
  exact forall_congr' fun entry => by simp

theorem bestRank_eq_some_iff {entries : List (RankedRetrievalItem α)} {id : Text} {rank : ℚ} :
    bestRank identify entries id = some rank ↔
      (∃ entry ∈ entries, identify entry.item = id ∧ entry.rank = rank) ∧
        ∀ entry ∈ entries, identify entry.item = id → rank ≤ entry.rank := by
  unfold bestRank
  rw [List.min?_eq_some_iff]
  simp only [List.mem_map, List.mem_filter, beq_iff_eq, and_assoc]
  refine and_congr_right fun _ => ⟨fun h entry hmem hid => ?_, fun h rank' hrank => ?_⟩
  · exact h _ ⟨entry, hmem, hid, rfl⟩
  · obtain ⟨entry, hmem, hid, rfl⟩ := hrank
    exact h entry hmem hid

/-- One more entry of a list. -/
theorem bestRank_append (entries : List (RankedRetrievalItem α)) (entry : RankedRetrievalItem α)
    (id : Text) :
    bestRank identify (entries ++ [entry]) id =
      if identify entry.item = id then
        match bestRank identify entries id with
        | none => some entry.rank
        | some rank => if entry.rank < rank then some entry.rank else some rank
      else bestRank identify entries id := by
  by_cases hid : identify entry.item = id
  · rw [if_pos hid]
    cases hbest : bestRank identify entries id with
    | none =>
      rw [bestRank_eq_some_iff]
      have hno := bestRank_eq_none_iff.mp hbest
      refine ⟨⟨entry, by simp, hid, rfl⟩, fun other hother hsame => ?_⟩
      rcases List.mem_append.mp hother with h | h
      · exact absurd (List.mem_map.mpr ⟨other, h, hsame⟩) hno
      · obtain rfl := List.mem_singleton.mp h
        exact le_rfl
    | some rank =>
      obtain ⟨⟨best, hmem, hsame, hrank⟩, hle⟩ := bestRank_eq_some_iff.mp hbest
      by_cases hlt : entry.rank < rank
      · simp only [hlt, if_true]
        rw [bestRank_eq_some_iff]
        refine ⟨⟨entry, by simp, hid, rfl⟩, fun other hother hother' => ?_⟩
        rcases List.mem_append.mp hother with h | h
        · exact hlt.le.trans (hle other h hother')
        · obtain rfl := List.mem_singleton.mp h
          exact le_rfl
      · simp only [hlt, if_false]
        rw [bestRank_eq_some_iff]
        refine ⟨⟨best, List.mem_append_left _ hmem, hsame, hrank⟩, fun other hother hother' => ?_⟩
        rcases List.mem_append.mp hother with h | h
        · exact hle other h hother'
        · obtain rfl := List.mem_singleton.mp h
          exact not_lt.mp hlt
  · rw [if_neg hid]
    unfold bestRank
    rw [List.filter_append, List.filter_cons_of_neg (by simpa using hid), List.filter_nil,
      List.append_nil]

theorem bestRank_perm {left right : List (RankedRetrievalItem α)} (h : left.Perm right)
    (id : Text) : bestRank identify left id = bestRank identify right id := by
  cases hbest : bestRank identify right id with
  | none =>
    rw [bestRank_eq_none_iff] at hbest ⊢
    exact fun hmem => hbest ((h.map _).mem_iff.mp hmem)
  | some rank =>
    rw [bestRank_eq_some_iff] at hbest ⊢
    obtain ⟨⟨entry, hmem, hentry⟩, hle⟩ := hbest
    exact ⟨⟨entry, h.mem_iff.mpr hmem, hentry⟩,
      fun other hother => hle other (h.mem_iff.mp hother)⟩

theorem firstItem_append (left right : List (RankedRetrievalItem α)) (id : Text) :
    firstItem identify (left ++ right) id =
      (firstItem identify left id).or (firstItem identify right id) := by
  unfold firstItem
  rw [List.find?_append]
  cases List.find? (fun entry : RankedRetrievalItem α => identify entry.item == id) left <;> simp

theorem firstItem_singleton (entry : RankedRetrievalItem α) (id : Text) :
    firstItem identify [entry] id = if identify entry.item = id then some entry.item else none := by
  unfold firstItem
  by_cases h : identify entry.item = id
  · simp [h]
  · simp [h]

theorem firstItem_eq_none_iff {entries : List (RankedRetrievalItem α)} {id : Text} :
    firstItem identify entries id = none ↔ id ∉ ids identify entries := by
  unfold firstItem ids
  rw [Option.map_eq_none_iff, List.find?_eq_none, List.mem_map, not_exists]
  exact forall_congr' fun entry => by simp

theorem firstItem_eq_some {entries : List (RankedRetrievalItem α)} {id : Text} {item : α}
    (h : firstItem identify entries id = some item) :
    identify item = id ∧ ∃ entry ∈ entries, entry.item = item := by
  unfold firstItem at h
  obtain ⟨entry, hfind, rfl⟩ := Option.map_eq_some_iff.mp h
  exact ⟨by simpa using List.find?_some hfind, entry, List.mem_of_find?_eq_some hfind, rfl⟩

/-! ## 3. The map after part of the lists -/

/-- The map holds the fused entries of these parts of the lists. -/
structure Fuses (identify : α → Text) (k : ℚ) (vectorResults lexicalResults :
    List (RankedRetrievalItem α)) (fused : JsMap Text (FusedRetrievalItem α)) : Prop where
  keys : fused.keys = fusedIds identify vectorResults lexicalResults
  get : ∀ id, fused.get id = fusedEntry identify k vectorResults lexicalResults id

theorem Fuses.nil : Fuses identify k [] [] [] := ⟨rfl, fun _ => rfl⟩

/-- The entry an id has before another one is added: the new one's item if it is the first. -/
theorem Fuses.current {vectorResults lexicalResults : List (RankedRetrievalItem α)}
    {fused : JsMap Text (FusedRetrievalItem α)}
    (h : Fuses identify k vectorResults lexicalResults fused) (id : Text) (item : α) :
    (fused.get id).getD ⟨item, 0, none, none⟩ =
      ⟨(firstItem identify (vectorResults ++ lexicalResults) id).getD item,
        fusedScore identify k vectorResults lexicalResults id,
        bestRank identify vectorResults id, bestRank identify lexicalResults id⟩ := by
  rw [h.get]
  unfold fusedEntry
  cases hfirst : firstItem identify (vectorResults ++ lexicalResults) id with
  | some _ => rfl
  | none =>
    have hno := firstItem_eq_none_iff.mp hfirst
    rw [ids_append, List.mem_append, not_or] at hno
    have hv : bestRank identify vectorResults id = none := bestRank_eq_none_iff.mpr hno.1
    have hl : bestRank identify lexicalResults id = none := bestRank_eq_none_iff.mpr hno.2
    unfold fusedScore
    rw [hv, hl]
    simp [share]

/-- The list of a kind after an entry of this kind or the other. -/
def pushed (own kind : RankKind) (entries : List (RankedRetrievalItem α))
    (entry : RankedRetrievalItem α) : List (RankedRetrievalItem α) :=
  if own = kind then entries ++ [entry] else entries

/-- **One entry**: the map holds the fused entries of the lists with it. The vector list comes
    first. -/
theorem Fuses.add {vectorResults lexicalResults : List (RankedRetrievalItem α)}
    {fused : JsMap Text (FusedRetrievalItem α)} {kind : RankKind}
    (h : Fuses identify k vectorResults lexicalResults fused)
    (hkind : kind = .vectorRank → lexicalResults = [])
    {entry : RankedRetrievalItem α} (hvalid : entry.rank.den = 1 ∧ 1 ≤ entry.rank) :
    ∃ fused', addEntry identify k kind fused entry = .ok fused' ∧
      Fuses identify k (pushed .vectorRank kind vectorResults entry)
        (pushed .lexicalRank kind lexicalResults entry) fused' := by
  have hok : ¬ (entry.rank.den ≠ 1 ∨ entry.rank < 1) := by
    rintro (hden | hlt)
    · exact hden hvalid.1
    · exact absurd hvalid.2 (not_le.mpr hlt)
  have hall : pushed .vectorRank kind vectorResults entry ++
      pushed .lexicalRank kind lexicalResults entry =
      vectorResults ++ lexicalResults ++ [entry] := by
    cases kind with
    | vectorRank =>
      rw [hkind rfl]
      simp [pushed]
    | lexicalRank => simp [pushed]
  unfold addEntry
  rw [if_neg hok]
  refine ⟨_, rfl, ⟨?_, fun id => ?_⟩⟩
  · have hkeys := h.keys
    unfold fusedIds at hkeys ⊢
    rw [hall, ids_append, JsMap.keys_set_eraseDups hkeys]
    rfl
  · rw [JsMap.get_set, h.current]
    unfold fusedEntry
    rw [hall, firstItem_append (vectorResults ++ lexicalResults), firstItem_singleton]
    by_cases hid : identify entry.item = id
    · rw [if_pos hid, if_pos hid]
      subst hid
      have hitem : (firstItem identify (vectorResults ++ lexicalResults)
          (identify entry.item)).or (some entry.item) =
          some ((firstItem identify (vectorResults ++ lexicalResults)
            (identify entry.item)).getD entry.item) := by
        cases firstItem identify (vectorResults ++ lexicalResults) (identify entry.item) <;> rfl
      rw [hitem, Option.map_some]
      congr 1
      cases kind with
      | vectorRank =>
        have hbest := @bestRank_append α identify vectorResults entry (identify entry.item)
        rw [if_pos rfl] at hbest
        simp only [FusedRetrievalItem.rank, FusedRetrievalItem.setRank, pushed, fusedScore,
          reduceCtorEq, if_true, if_false, hbest]
        cases bestRank identify vectorResults (identify entry.item) with
        | none =>
          simp only [share]
          congr 1
          ring
        | some rank =>
          by_cases hlt : entry.rank < rank
          · simp only [hlt, if_true, share]
            congr 1
            ring
          · simp only [hlt, if_false]
      | lexicalRank =>
        have hbest := @bestRank_append α identify lexicalResults entry (identify entry.item)
        rw [if_pos rfl] at hbest
        simp only [FusedRetrievalItem.rank, FusedRetrievalItem.setRank, pushed, fusedScore,
          reduceCtorEq, if_true, if_false, hbest]
        cases bestRank identify lexicalResults (identify entry.item) with
        | none =>
          simp only [share]
          congr 1
          ring
        | some rank =>
          by_cases hlt : entry.rank < rank
          · simp only [hlt, if_true, share]
            congr 1
            ring
          · simp only [hlt, if_false]
    · -- the others keep what they have
      have hv : bestRank identify (pushed .vectorRank kind vectorResults entry) id =
          bestRank identify vectorResults id := by
        unfold pushed
        split
        · rw [bestRank_append, if_neg hid]
        · rfl
      have hl : bestRank identify (pushed .lexicalRank kind lexicalResults entry) id =
          bestRank identify lexicalResults id := by
        unfold pushed
        split
        · rw [bestRank_append, if_neg hid]
        · rfl
      rw [if_neg hid, if_neg hid, h.get, Option.or_none]
      unfold fusedEntry fusedScore
      rw [hv, hl]

/-- **A loop over one list**, given what one entry does to it. -/
theorem foldlM_fuses {kind : RankKind} {entries : List (RankedRetrievalItem α)}
    {P : List (RankedRetrievalItem α) → JsMap Text (FusedRetrievalItem α) → Prop}
    (hstep : ∀ (done : List (RankedRetrievalItem α)) (entry : RankedRetrievalItem α)
      (fused : JsMap Text (FusedRetrievalItem α)),
      P done fused → entry.rank.den = 1 ∧ 1 ≤ entry.rank →
        ∃ fused', addEntry identify k kind fused entry = .ok fused' ∧ P (done ++ [entry]) fused')
    (hvalid : ValidRanks entries) {fused : JsMap Text (FusedRetrievalItem α)}
    (hstart : P [] fused) :
    ∃ fused', entries.foldlM (addEntry identify k kind) fused = .ok fused' ∧ P entries fused' := by
  induction entries using List.reverseRecOn with
  | nil => exact ⟨fused, rfl, hstart⟩
  | append_singleton entries entry ih =>
    obtain ⟨middle, hfold, hmiddle⟩ := ih fun e he => hvalid e (List.mem_append_left _ he)
    obtain ⟨fused', hadd, hfused'⟩ := hstep entries entry middle hmiddle
      (hvalid entry (List.mem_append_right _ (List.mem_singleton_self _)))
    refine ⟨fused', ?_, hfused'⟩
    rw [List.foldlM_append, hfold]
    show [entry].foldlM (addEntry identify k kind) middle = _
    rw [List.foldlM_cons, hadd]
    rfl

theorem nodup_fusedIds (vectorResults lexicalResults : List (RankedRetrievalItem α)) :
    (fusedIds identify vectorResults lexicalResults).Nodup := JsMap.nodup_eraseDups _

end Lemmas

/-! ## 4. The fused entries -/

section Fusion

variable {α : Type} {identify : α → Text} {k : ℚ}
variable {vectorResults lexicalResults : List (RankedRetrievalItem α)}

theorem mem_fusedIds {id : Text} : id ∈ fusedIds identify vectorResults lexicalResults ↔
    id ∈ ids identify vectorResults ∨ id ∈ ids identify lexicalResults := by
  unfold fusedIds
  rw [List.mem_eraseDups, ids_append, List.mem_append]

theorem fusedEntry_isSome {id : Text}
    (h : id ∈ fusedIds identify vectorResults lexicalResults) :
    ∃ entry, fusedEntry identify k vectorResults lexicalResults id = some entry := by
  rw [mem_fusedIds, ← List.mem_append, ← ids_append] at h
  unfold fusedEntry
  cases hfirst : firstItem identify (vectorResults ++ lexicalResults) id with
  | none => exact absurd h (firstItem_eq_none_iff.mp hfirst)
  | some item => exact ⟨_, rfl⟩

theorem fusedEntry_eq_some {id : Text} {entry : FusedRetrievalItem α}
    (h : fusedEntry identify k vectorResults lexicalResults id = some entry) :
    identify entry.item = id ∧ id ∈ fusedIds identify vectorResults lexicalResults ∧
      entry.score = fusedScore identify k vectorResults lexicalResults id ∧
      entry.vectorRank = bestRank identify vectorResults id ∧
      entry.lexicalRank = bestRank identify lexicalResults id := by
  unfold fusedEntry at h
  obtain ⟨item, hfirst, rfl⟩ := Option.map_eq_some_iff.mp h
  obtain ⟨hid, -⟩ := firstItem_eq_some hfirst
  refine ⟨hid, ?_, rfl, rfl, rfl⟩
  rw [mem_fusedIds, ← List.mem_append, ← ids_append]
  by_contra hno
  rw [firstItem_eq_none_iff.mpr hno] at hfirst
  nomatch hfirst

theorem mem_fusion {entry : FusedRetrievalItem α} :
    entry ∈ fusion identify k vectorResults lexicalResults ↔
      fusedEntry identify k vectorResults lexicalResults (identify entry.item) = some entry := by
  unfold fusion
  rw [List.mem_filterMap]
  constructor
  · rintro ⟨id, -, hid⟩
    rw [(fusedEntry_eq_some hid).1]
    exact hid
  · intro h
    exact ⟨_, (fusedEntry_eq_some h).2.1, h⟩

/-- **Each id once.** -/
theorem fusion_ids : (fusion identify k vectorResults lexicalResults).map
    (fun entry => identify entry.item) = fusedIds identify vectorResults lexicalResults := by
  have hpart : ∀ part : List Text,
      (∀ id ∈ part, id ∈ fusedIds identify vectorResults lexicalResults) →
      (part.filterMap (fusedEntry identify k vectorResults lexicalResults)).map
        (fun entry => identify entry.item) = part := by
    intro part hpart
    induction part with
    | nil => rfl
    | cons id rest ih =>
      obtain ⟨entry, hentry⟩ := @fusedEntry_isSome α identify k _ _ _
        (hpart id List.mem_cons_self)
      rw [List.filterMap_cons_some hentry, List.map_cons, (fusedEntry_eq_some hentry).1,
        ih fun other hother => hpart other (List.mem_cons_of_mem _ hother)]
  exact hpart _ fun _ h => h

theorem nodup_fusion : (fusion identify k vectorResults lexicalResults).Nodup := by
  have hids : ((fusion identify k vectorResults lexicalResults).map
      fun entry => identify entry.item).Nodup := by
    rw [fusion_ids]
    exact nodup_fusedIds _ _
  exact hids.of_map _

variable [LocaleCompare]

/-- **What the function returns**: the fused entries, sorted. -/
theorem reciprocalRankFusion_eq (hk : 0 < k) (hvector : ValidRanks vectorResults)
    (hlexical : ValidRanks lexicalResults) :
    reciprocalRankFusion vectorResults lexicalResults identify k =
      .ok (sortFused identify (fusion identify k vectorResults lexicalResults)) := by
  obtain ⟨middle, hmiddle, hfirst⟩ := @foldlM_fuses α identify k .vectorRank vectorResults
    (fun done fused => Fuses identify k done [] fused)
    (fun done entry fused h hvalid => @Fuses.add _ _ _ _ _ _ .vectorRank h (fun _ => rfl) _ hvalid)
    hvector [] Fuses.nil
  obtain ⟨fused, hfused, hsecond⟩ := @foldlM_fuses α identify k .lexicalRank lexicalResults
    (fun done fused => Fuses identify k vectorResults done fused)
    (fun done entry fused h hvalid =>
      @Fuses.add _ _ _ _ _ _ .lexicalRank h (fun h => nomatch h) _ hvalid)
    hlexical middle hfirst
  have hkeys : fused.keys.Nodup := by
    rw [hsecond.keys]
    exact nodup_fusedIds _ _
  have hvalues : fused.values = fusion identify k vectorResults lexicalResults := by
    rw [JsMap.values_eq hkeys, hsecond.keys]
    exact List.filterMap_congr fun id _ => hsecond.get id
  unfold reciprocalRankFusion
  rw [if_neg (not_le.mpr hk), hmiddle]
  show (do
    let fused ← lexicalResults.foldlM (addEntry identify k .lexicalRank) middle
    pure (sortFused identify fused.values)) = _
  rw [hfused, ← hvalues]
  rfl

/-! ## 5. The order of the result -/

theorem compareFused_ne_gt_iff {left right : FusedRetrievalItem α} :
    compareFused identify left right ≠ .gt ↔ right.score < left.score ∨
      (right.score = left.score ∧
        LocaleCompare.localeCompare (identify left.item) (identify right.item) ≠ .gt) := by
  unfold compareFused
  rcases lt_trichotomy right.score left.score with h | h | h
  · simp [h]
  · simp [h]
  · have hno : ¬ right.score < left.score := not_lt.mpr h.le
    have hne : ¬ right.score = left.score := h.ne'
    simp [h, hno, hne]

variable [hlocale : Std.TransCmp LocaleCompare.localeCompare]

instance : Std.Total fun left right : FusedRetrievalItem α =>
    compareFused identify left right ≠ .gt where
  total left right := by
    rw [compareFused_ne_gt_iff, compareFused_ne_gt_iff]
    rcases lt_trichotomy right.score left.score with h | h | h
    · exact Or.inl (Or.inl h)
    · have hswap := @Std.OrientedCmp.eq_swap _ LocaleCompare.localeCompare _
        (identify left.item) (identify right.item)
      cases hcmp : LocaleCompare.localeCompare (identify right.item) (identify left.item) with
      | gt =>
          rw [hcmp] at hswap
          refine Or.inl (Or.inr ⟨h, ?_⟩)
          rw [hswap]
          exact fun h => nomatch h
      | lt => exact Or.inr (Or.inr ⟨h.symm, fun h => nomatch h⟩)
      | eq => exact Or.inr (Or.inr ⟨h.symm, fun h => nomatch h⟩)
    · exact Or.inr (Or.inl h)

instance : IsTrans (FusedRetrievalItem α) fun left right =>
    compareFused identify left right ≠ .gt where
  trans first second third h1 h2 := by
    rw [compareFused_ne_gt_iff] at h1 h2 ⊢
    rcases h1 with h1 | ⟨h1, hc1⟩
    · rcases h2 with h2 | ⟨h2, -⟩
      · exact Or.inl (h2.trans h1)
      · exact Or.inl (h2 ▸ h1)
    · rcases h2 with h2 | ⟨h2, hc2⟩
      · exact Or.inl (h1 ▸ h2)
      · refine Or.inr ⟨h2.trans h1, ?_⟩
        have htrans := Std.TransCmp.isLE_trans (Ordering.isLE_iff_ne_gt.mpr hc1)
          (Ordering.isLE_iff_ne_gt.mpr hc2)
        exact Ordering.isLE_iff_ne_gt.mp htrans

/-! ## 6. The order of presentation -/

omit [LocaleCompare] hlocale

theorem ids_perm {left right : List (RankedRetrievalItem α)} (h : left.Perm right) (id : Text) :
    id ∈ ids identify left ↔ id ∈ ids identify right := (h.map _).mem_iff

theorem firstItem_perm {left right : List (RankedRetrievalItem α)} (h : left.Perm right) {id : Text}
    (hsame : ∀ entry ∈ right, ∀ other ∈ right, identify entry.item = id →
      identify other.item = id → entry.item = other.item) :
    firstItem identify left id = firstItem identify right id := by
  cases hright : firstItem identify right id with
  | none =>
    rw [firstItem_eq_none_iff] at hright ⊢
    exact fun hmem => hright ((ids_perm h id).mp hmem)
  | some item =>
    obtain ⟨hid, entry, hmem, rfl⟩ := firstItem_eq_some hright
    cases hleft : firstItem identify left id with
    | none =>
      have hno := firstItem_eq_none_iff.mp hleft
      exact absurd (List.mem_map.mpr ⟨entry, h.mem_iff.mpr hmem, hid⟩) hno
    | some item' =>
      obtain ⟨hid', other, hmem', rfl⟩ := firstItem_eq_some hleft
      rw [hsame other (h.mem_iff.mp hmem') entry hmem hid' hid]

/-- An entry in front of its list gives its item. -/
theorem firstItem_cons (entry : RankedRetrievalItem α) (rest : List (RankedRetrievalItem α)) :
    firstItem identify (entry :: rest) (identify entry.item) = some entry.item := by
  unfold firstItem
  rw [List.find?_cons_of_pos (by simp)]
  rfl

/-- **When the order of presentation does not matter**: entries of one id carry one item, and ids
    that tie and that the host's order does not tell apart do not come from the same list. -/
structure OrderFree [LocaleCompare] (identify : α → Text) (k : ℚ)
    (vectorResults lexicalResults : List (RankedRetrievalItem α)) : Prop where
  vectorItem : ∀ entry ∈ vectorResults, ∀ other ∈ vectorResults,
    identify entry.item = identify other.item → entry.item = other.item
  lexicalItem : ∀ entry ∈ lexicalResults, ∀ other ∈ lexicalResults,
    identify entry.item ∉ ids identify vectorResults →
      identify entry.item = identify other.item → entry.item = other.item
  apart : ∀ a ∈ fusedIds identify vectorResults lexicalResults,
    ∀ b ∈ fusedIds identify vectorResults lexicalResults,
      fusedScore identify k vectorResults lexicalResults a =
        fusedScore identify k vectorResults lexicalResults b →
      LocaleCompare.localeCompare a b = .eq →
      (a ∈ ids identify vectorResults ↔ b ∈ ids identify vectorResults) → a = b

section Permuted

variable {vectorResults' lexicalResults' : List (RankedRetrievalItem α)}

theorem fusedScore_perm (hv : vectorResults'.Perm vectorResults)
    (hl : lexicalResults'.Perm lexicalResults) (id : Text) :
    fusedScore identify k vectorResults' lexicalResults' id =
      fusedScore identify k vectorResults lexicalResults id := by
  unfold fusedScore
  rw [bestRank_perm hv, bestRank_perm hl]

theorem fusedEntry_perm [LocaleCompare]
    (h : OrderFree identify k vectorResults lexicalResults)
    (hv : vectorResults'.Perm vectorResults) (hl : lexicalResults'.Perm lexicalResults)
    (id : Text) :
    fusedEntry identify k vectorResults' lexicalResults' id =
      fusedEntry identify k vectorResults lexicalResults id := by
  have hfirst : firstItem identify (vectorResults' ++ lexicalResults') id =
      firstItem identify (vectorResults ++ lexicalResults) id := by
    have hvector : firstItem identify vectorResults' id = firstItem identify vectorResults id :=
      firstItem_perm hv fun entry he other ho hid hid' =>
        h.vectorItem entry he other ho (hid.trans hid'.symm)
    rw [firstItem_append, firstItem_append, hvector]
    cases hfirst : firstItem identify vectorResults id with
    | some item => rfl
    | none =>
      have hno := firstItem_eq_none_iff.mp hfirst
      have hlexical : firstItem identify lexicalResults' id =
          firstItem identify lexicalResults id :=
        firstItem_perm hl fun entry he other ho hid hid' =>
          h.lexicalItem entry he other ho (hid ▸ hno) (hid.trans hid'.symm)
      rw [hlexical]
  unfold fusedEntry
  rw [hfirst, fusedScore_perm hv hl, bestRank_perm hv, bestRank_perm hl]

theorem fusion_perm [LocaleCompare] (h : OrderFree identify k vectorResults lexicalResults)
    (hv : vectorResults'.Perm vectorResults) (hl : lexicalResults'.Perm lexicalResults) :
    (fusion identify k vectorResults' lexicalResults').Perm
      (fusion identify k vectorResults lexicalResults) := by
  have hids : (fusedIds identify vectorResults' lexicalResults').Perm
      (fusedIds identify vectorResults lexicalResults) := by
    refine (List.perm_ext_iff_of_nodup (nodup_fusedIds _ _) (nodup_fusedIds _ _)).mpr fun id => ?_
    rw [mem_fusedIds, mem_fusedIds, ids_perm hv, ids_perm hl]
  unfold fusion
  rw [List.filterMap_congr fun id _ => fusedEntry_perm h hv hl id]
  exact hids.filterMap _

end Permuted

/-- The ids of the vector list come first. -/
theorem vector_first : (fusion identify k vectorResults lexicalResults).Pairwise fun left right =>
    identify right.item ∈ ids identify vectorResults →
      identify left.item ∈ ids identify vectorResults := by
  have hpairwise : (fusedIds identify vectorResults lexicalResults).Pairwise fun a b =>
      b ∈ ids identify vectorResults → a ∈ ids identify vectorResults := by
    unfold fusedIds
    rw [ids_append, List.eraseDups_append]
    refine List.pairwise_append.mpr ⟨?_, ?_, ?_⟩
    · refine List.pairwise_of_forall_mem_list fun a ha b _ _ => ?_
      exact List.mem_eraseDups.mp ha
    · refine List.pairwise_of_forall_mem_list fun a _ b hb hbv => ?_
      have hno := List.mem_eraseDups.mp hb
      simp only [List.removeAll, List.mem_filter, List.contains_eq_mem] at hno
      simp [hbv] at hno
    · intro a ha b _ _
      exact List.mem_eraseDups.mp ha
  rw [← fusion_ids (k := k), List.pairwise_map] at hpairwise
  exact hpairwise

variable [LocaleCompare] [hlocale : Std.TransCmp LocaleCompare.localeCompare]

/-- After the sort, too, where the order does not tell them apart. -/
theorem sorted_vector_first :
    (sortFused identify (fusion identify k vectorResults lexicalResults)).Pairwise
      fun left right => compareFused identify left right ≠ .gt ∧
        (compareFused identify right left ≠ .gt →
          identify right.item ∈ ids identify vectorResults →
            identify left.item ∈ ids identify vectorResults) := by
  have hsorted := List.pairwise_insertionSort
    (fun left right : FusedRetrievalItem α => compareFused identify left right ≠ .gt)
    (fusion identify k vectorResults lexicalResults)
  unfold sortFused
  rw [List.pairwise_iff_forall_sublist] at hsorted ⊢
  intro left right hpair
  refine ⟨hsorted hpair, fun htie => ?_⟩
  have hbefore := StableSort.sublist_of_tie _ nodup_fusion htie hpair
  exact (List.pairwise_iff_forall_sublist.mp vector_first) hbefore

/-- **Enough**: where the order is free, all presentations have one result. -/
theorem sortFused_eq {vectorResults' lexicalResults' : List (RankedRetrievalItem α)}
    (h : OrderFree identify k vectorResults lexicalResults)
    (hv : vectorResults'.Perm vectorResults) (hl : lexicalResults'.Perm lexicalResults) :
    sortFused identify (fusion identify k vectorResults' lexicalResults') =
      sortFused identify (fusion identify k vectorResults lexicalResults) := by
  have hperm : (sortFused identify (fusion identify k vectorResults' lexicalResults')).Perm
      (sortFused identify (fusion identify k vectorResults lexicalResults)) :=
    (List.perm_insertionSort _ _).trans
      ((fusion_perm h hv hl).trans (List.perm_insertionSort _ _).symm)
  have hleft := @sorted_vector_first α identify k vectorResults' lexicalResults' _ _
  simp only [ids_perm hv] at hleft
  refine hperm.eq_of_pairwise ?_ hleft sorted_vector_first
  intro left right hmem hmem' hlr hrl
  have hin : ∀ entry ∈ sortFused identify (fusion identify k vectorResults lexicalResults),
      fusedEntry identify k vectorResults lexicalResults (identify entry.item) = some entry :=
    fun entry hentry => mem_fusion.mp ((List.perm_insertionSort _ _).mem_iff.mp hentry)
  have hleftEntry := hin left (hperm.mem_iff.mp hmem)
  have hrightEntry := hin right hmem'
  obtain ⟨-, hleftIds, hleftScore, -⟩ := fusedEntry_eq_some hleftEntry
  obtain ⟨-, hrightIds, hrightScore, -⟩ := fusedEntry_eq_some hrightEntry
  -- both ways round: the scores tie and the host's order does not tell the ids apart
  obtain ⟨hlr, hlrVector⟩ := hlr
  obtain ⟨hrl, hrlVector⟩ := hrl
  have hlr' := compareFused_ne_gt_iff.mp hlr
  have hrl' := compareFused_ne_gt_iff.mp hrl
  have hscore : left.score = right.score := by
    rcases hlr' with h1 | ⟨h1, -⟩
    · rcases hrl' with h2 | ⟨h2, -⟩
      · exact absurd h1 (lt_asymm h2)
      · exact h2
    · exact h1.symm
  have heq : LocaleCompare.localeCompare (identify left.item) (identify right.item) = .eq := by
    have h1 : LocaleCompare.localeCompare (identify left.item) (identify right.item) ≠ .gt := by
      rcases hlr' with h1 | ⟨-, h1⟩
      · exact absurd h1 (hscore ▸ lt_irrefl _)
      · exact h1
    have h2 : LocaleCompare.localeCompare (identify right.item) (identify left.item) ≠ .gt := by
      rcases hrl' with h2 | ⟨-, h2⟩
      · exact absurd h2 (hscore ▸ lt_irrefl _)
      · exact h2
    have hswap := @Std.OrientedCmp.eq_swap _ LocaleCompare.localeCompare _
      (identify left.item) (identify right.item)
    cases hcmp : LocaleCompare.localeCompare (identify left.item) (identify right.item) with
    | eq => rfl
    | gt => exact absurd hcmp h1
    | lt =>
      rw [hcmp] at hswap
      cases hcmp' : LocaleCompare.localeCompare (identify right.item) (identify left.item) with
      | gt => exact absurd hcmp' h2
      | lt =>
        rw [hcmp'] at hswap
        nomatch hswap
      | eq =>
        rw [hcmp'] at hswap
        nomatch hswap
  have hsame := h.apart _ hleftIds _ hrightIds (by rw [← hleftScore, ← hrightScore, hscore]) heq
    ⟨hrlVector hlr, hlrVector hrl⟩
  rw [hsame, hrightEntry] at hleftEntry
  exact (Option.some.inj hleftEntry).symm

/-! ## 7. When it does matter -/

omit [LocaleCompare] hlocale in
/-- Any entry of a list can be presented first. -/
theorem perm_to_front {entries : List (RankedRetrievalItem α)} {entry : RankedRetrievalItem α}
    (h : entry ∈ entries) : ∃ rest, (entry :: rest).Perm entries := by
  obtain ⟨before, after, rfl⟩ := List.append_of_mem h
  exact ⟨before ++ after, List.perm_middle.symm⟩

omit [LocaleCompare] hlocale in
/-- The id of the first vector entry is the first of all. -/
theorem front_vector {entry : RankedRetrievalItem α} {rest : List (RankedRetrievalItem α)}
    {b : Text} (hb : b ∈ fusedIds identify (entry :: rest) lexicalResults)
    (hne : identify entry.item ≠ b) :
    [identify entry.item, b].Sublist (fusedIds identify (entry :: rest) lexicalResults) := by
  unfold fusedIds at hb ⊢
  have hcons : ids identify (entry :: rest ++ lexicalResults) =
      identify entry.item :: ids identify (rest ++ lexicalResults) := rfl
  rw [hcons, List.eraseDups_cons] at hb ⊢
  have hrest := (List.mem_cons.mp hb).resolve_left fun h => hne h.symm
  exact List.Sublist.cons_cons _ (List.singleton_sublist.mpr hrest)

omit [LocaleCompare] hlocale in
/-- The id of the first lexical entry is the first of those that are not in the vector list. -/
theorem front_lexical {entry : RankedRetrievalItem α} {rest : List (RankedRetrievalItem α)}
    {b : Text} (ha : identify entry.item ∉ ids identify vectorResults)
    (hb : b ∈ fusedIds identify vectorResults (entry :: rest))
    (hbv : b ∉ ids identify vectorResults) (hne : identify entry.item ≠ b) :
    [identify entry.item, b].Sublist (fusedIds identify vectorResults (entry :: rest)) := by
  have hbl : b ∈ ids identify (entry :: rest) := (mem_fusedIds.mp hb).resolve_left hbv
  have hbr : b ∈ ids identify rest := (List.mem_cons.mp hbl).resolve_left fun h => hne h.symm
  have hremove : (ids identify (entry :: rest)).removeAll (ids identify vectorResults) =
      identify entry.item :: (ids identify rest).removeAll (ids identify vectorResults) := by
    unfold List.removeAll
    have hcons : ids identify (entry :: rest) = identify entry.item :: ids identify rest := rfl
    rw [hcons, List.filter_cons_of_pos]
    simp [ha]
  unfold fusedIds
  rw [ids_append, List.eraseDups_append, hremove, List.eraseDups_cons]
  refine (List.Sublist.cons_cons _ (List.singleton_sublist.mpr ?_)).trans
    (List.sublist_append_right _ _)
  rw [List.mem_eraseDups]
  simp only [List.removeAll, List.mem_filter, List.contains_eq_mem]
  exact ⟨⟨hbr, by simpa using hbv⟩, by simpa using fun h : b = identify entry.item => hne h.symm⟩

omit hlocale in
/-- Two ids that tie stand in the result as they come in the lists. -/
theorem pair_sublist_sorted {a b : Text} {left right : FusedRetrievalItem α}
    (hpair : [a, b].Sublist (fusedIds identify vectorResults lexicalResults))
    (hleft : fusedEntry identify k vectorResults lexicalResults a = some left)
    (hright : fusedEntry identify k vectorResults lexicalResults b = some right)
    (hle : compareFused identify left right ≠ .gt) :
    [left, right].Sublist
      (sortFused identify (fusion identify k vectorResults lexicalResults)) := by
  have hfusion := hpair.filterMap (fusedEntry identify k vectorResults lexicalResults)
  rw [List.filterMap_cons_some hleft, List.filterMap_cons_some hright,
    List.filterMap_nil] at hfusion
  exact List.pair_sublist_insertionSort hle hfusion

omit hlocale in
theorem mem_sorted {entry : FusedRetrievalItem α} :
    entry ∈ sortFused identify (fusion identify k vectorResults lexicalResults) ↔
      fusedEntry identify k vectorResults lexicalResults (identify entry.item) = some entry := by
  unfold sortFused
  rw [(List.perm_insertionSort _ _).mem_iff, mem_fusion]

omit hlocale in
/-- One result for all presentations: then each of them has the entries of the others. -/
theorem fusedEntry_of_sorted {vectorResults' lexicalResults' : List (RankedRetrievalItem α)}
    (h : sortFused identify (fusion identify k vectorResults' lexicalResults') =
      sortFused identify (fusion identify k vectorResults lexicalResults)) {id : Text}
    {entry : FusedRetrievalItem α}
    (hentry : fusedEntry identify k vectorResults' lexicalResults' id = some entry) :
    fusedEntry identify k vectorResults lexicalResults id = some entry := by
  have hid := (fusedEntry_eq_some hentry).1
  rw [← hid] at hentry ⊢
  rw [← mem_sorted, ← h, mem_sorted]
  exact hentry

/-- **Needed**: one result for all presentations leaves the order free. -/
theorem orderFree_of_sorted
    (h : ∀ vectorResults' lexicalResults' : List (RankedRetrievalItem α),
      vectorResults'.Perm vectorResults → lexicalResults'.Perm lexicalResults →
        sortFused identify (fusion identify k vectorResults' lexicalResults') =
          sortFused identify (fusion identify k vectorResults lexicalResults)) :
    OrderFree identify k vectorResults lexicalResults := by
  have hnodup : (sortFused identify (fusion identify k vectorResults lexicalResults)).Nodup :=
    (List.perm_insertionSort _ _).nodup_iff.mpr nodup_fusion
  -- two ids that tie and can each come first stand both ways round
  have hboth : ∀ {a b : Text} {left right : FusedRetrievalItem α}
      {v v' l l' : List (RankedRetrievalItem α)}, v.Perm vectorResults → v'.Perm vectorResults →
      l.Perm lexicalResults → l'.Perm lexicalResults →
      fusedEntry identify k vectorResults lexicalResults a = some left →
      fusedEntry identify k vectorResults lexicalResults b = some right →
      compareFused identify left right ≠ .gt → compareFused identify right left ≠ .gt →
      [a, b].Sublist (fusedIds identify v l) → [b, a].Sublist (fusedIds identify v' l') →
      False := by
    intro a b left right v v' l l' hv hv' hl hl' hleft hright hlr hrl hab hba
    have hsame := h v l hv hl
    have hsame' := h v' l' hv' hl'
    have h1 := pair_sublist_sorted hab (fusedEntry_of_sorted hsame.symm hleft)
      (fusedEntry_of_sorted hsame.symm hright) hlr
    have h2 := pair_sublist_sorted hba (fusedEntry_of_sorted hsame'.symm hright)
      (fusedEntry_of_sorted hsame'.symm hleft) hrl
    rw [hsame] at h1
    rw [hsame'] at h2
    exact StableSort.not_pair_sublist_swap hnodup h1 h2
  refine ⟨?_, ?_, ?_⟩
  · intro entry hentry other hother hid
    -- each of the two, presented first, gives the item
    have hitem : ∀ e ∈ vectorResults, identify e.item = identify entry.item →
        firstItem identify (vectorResults ++ lexicalResults) (identify entry.item) =
          some e.item := by
      intro e he hide
      obtain ⟨rest, hperm⟩ := perm_to_front he
      have hfirst : firstItem identify (e :: rest ++ lexicalResults) (identify entry.item) =
          some e.item := by
        rw [firstItem_append, ← hide, firstItem_cons]
        rfl
      have hpresented : fusedEntry identify k (e :: rest) lexicalResults (identify entry.item) =
          some ⟨e.item, fusedScore identify k (e :: rest) lexicalResults (identify entry.item),
            bestRank identify (e :: rest) (identify entry.item),
            bestRank identify lexicalResults (identify entry.item)⟩ := by
        unfold fusedEntry
        rw [hfirst]
        rfl
      have hfused := fusedEntry_of_sorted (h _ _ hperm (List.Perm.refl _)) hpresented
      unfold fusedEntry at hfused
      obtain ⟨item, hitem, heq⟩ := Option.map_eq_some_iff.mp hfused
      rw [hitem, (FusedRetrievalItem.mk.inj heq).1]
    exact Option.some.inj ((hitem entry hentry rfl).symm.trans (hitem other hother hid.symm))
  · intro entry hentry other hother hnot hid
    have hitem : ∀ e ∈ lexicalResults, identify e.item = identify entry.item →
        firstItem identify (vectorResults ++ lexicalResults) (identify entry.item) =
          some e.item := by
      intro e he hide
      obtain ⟨rest, hperm⟩ := perm_to_front he
      have hfirst : firstItem identify (vectorResults ++ e :: rest) (identify entry.item) =
          some e.item := by
        rw [firstItem_append, firstItem_eq_none_iff.mpr hnot, ← hide, firstItem_cons]
        rfl
      have hpresented : fusedEntry identify k vectorResults (e :: rest) (identify entry.item) =
          some ⟨e.item, fusedScore identify k vectorResults (e :: rest) (identify entry.item),
            bestRank identify vectorResults (identify entry.item),
            bestRank identify (e :: rest) (identify entry.item)⟩ := by
        unfold fusedEntry
        rw [hfirst]
        rfl
      have hfused := fusedEntry_of_sorted (h _ _ (List.Perm.refl _) hperm) hpresented
      unfold fusedEntry at hfused
      obtain ⟨item, hitem, heq⟩ := Option.map_eq_some_iff.mp hfused
      rw [hitem, (FusedRetrievalItem.mk.inj heq).1]
    exact Option.some.inj ((hitem entry hentry rfl).symm.trans (hitem other hother hid.symm))
  · intro a ha b hb hscore hcmp hsides
    by_contra hne
    obtain ⟨left, hleft⟩ := @fusedEntry_isSome α identify k _ _ _ ha
    obtain ⟨right, hright⟩ := @fusedEntry_isSome α identify k _ _ _ hb
    obtain ⟨hida, -, hsa, -⟩ := fusedEntry_eq_some hleft
    obtain ⟨hidb, -, hsb, -⟩ := fusedEntry_eq_some hright
    have htie : left.score = right.score := by rw [hsa, hsb, hscore]
    have hcmp' : LocaleCompare.localeCompare b a = .eq := by
      rw [@Std.OrientedCmp.eq_swap _ LocaleCompare.localeCompare _ b a, hcmp]
      rfl
    have hlr : compareFused identify left right ≠ .gt := by
      refine compareFused_ne_gt_iff.mpr (Or.inr ⟨htie.symm, ?_⟩)
      rw [hida, hidb, hcmp]
      exact fun h => nomatch h
    have hrl : compareFused identify right left ≠ .gt := by
      refine compareFused_ne_gt_iff.mpr (Or.inr ⟨htie, ?_⟩)
      rw [hida, hidb, hcmp']
      exact fun h => nomatch h
    by_cases hav : a ∈ ids identify vectorResults
    · obtain ⟨ea, hea, hea'⟩ := List.mem_map.mp hav
      obtain ⟨eb, heb, heb'⟩ := List.mem_map.mp (hsides.mp hav)
      obtain ⟨resta, hpa⟩ := perm_to_front hea
      obtain ⟨restb, hpb⟩ := perm_to_front heb
      refine hboth hpa hpb (List.Perm.refl lexicalResults) (List.Perm.refl _) hleft hright hlr hrl
        ?_ ?_
      · have hmem : b ∈ fusedIds identify (ea :: resta) lexicalResults :=
          mem_fusedIds.mpr (Or.inl ((ids_perm hpa b).mpr (hsides.mp hav)))
        subst hea'
        exact front_vector hmem hne
      · have hmem : a ∈ fusedIds identify (eb :: restb) lexicalResults :=
          mem_fusedIds.mpr (Or.inl ((ids_perm hpb a).mpr hav))
        subst heb'
        exact front_vector hmem fun h => hne h.symm
    · have hbv : b ∉ ids identify vectorResults := fun h => hav (hsides.mpr h)
      have hal : a ∈ ids identify lexicalResults := (mem_fusedIds.mp ha).resolve_left hav
      have hbl : b ∈ ids identify lexicalResults := (mem_fusedIds.mp hb).resolve_left hbv
      obtain ⟨ea, hea, hea'⟩ := List.mem_map.mp hal
      obtain ⟨eb, heb, heb'⟩ := List.mem_map.mp hbl
      obtain ⟨resta, hpa⟩ := perm_to_front hea
      obtain ⟨restb, hpb⟩ := perm_to_front heb
      refine hboth (List.Perm.refl vectorResults) (List.Perm.refl _) hpa hpb hleft hright hlr hrl
        ?_ ?_
      · have hmem : b ∈ fusedIds identify vectorResults (ea :: resta) :=
          mem_fusedIds.mpr (Or.inr ((ids_perm hpa b).mpr hbl))
        subst hea'
        exact front_lexical hav hmem hbv hne
      · have hmem : a ∈ fusedIds identify vectorResults (eb :: restb) :=
          mem_fusedIds.mpr (Or.inr ((ids_perm hpb a).mpr hal))
        subst heb'
        exact front_lexical hbv hmem hav fun h => hne h.symm

/-! ## 8. The result -/

/-- **The fused list**: every id of the two lists once, with the sum over its best ranks; sorted by
    score, then by the host's order of ids; and the same for every order of presentation exactly if
    the order is free. -/
theorem reciprocalRankFusion_spec (hk : 0 < k) (hvector : ValidRanks vectorResults)
    (hlexical : ValidRanks lexicalResults) :
    ∃ fused, reciprocalRankFusion vectorResults lexicalResults identify k = .ok fused ∧
      (fused.map fun entry => identify entry.item).Nodup ∧
      (∀ id, id ∈ fused.map (fun entry => identify entry.item) ↔
        id ∈ ids identify vectorResults ∨ id ∈ ids identify lexicalResults) ∧
      (∀ entry ∈ fused,
        entry.score = fusedScore identify k vectorResults lexicalResults (identify entry.item)) ∧
      (fused.Pairwise fun left right => right.score < left.score ∨
        (right.score = left.score ∧
          LocaleCompare.localeCompare (identify left.item) (identify right.item) ≠ .gt)) ∧
      ((∀ vectorResults' lexicalResults' : List (RankedRetrievalItem α),
          vectorResults'.Perm vectorResults → lexicalResults'.Perm lexicalResults →
            reciprocalRankFusion vectorResults' lexicalResults' identify k = .ok fused) ↔
        OrderFree identify k vectorResults lexicalResults) := by
  have hperm := List.perm_insertionSort
    (fun left right : FusedRetrievalItem α => compareFused identify left right ≠ .gt)
    (fusion identify k vectorResults lexicalResults)
  have hids : ((sortFused identify (fusion identify k vectorResults lexicalResults)).map
      fun entry => identify entry.item).Perm (fusedIds identify vectorResults lexicalResults) := by
    rw [← fusion_ids (k := k)]
    exact hperm.map _
  have hvalid : ∀ {left right : List (RankedRetrievalItem α)}, left.Perm right →
      ValidRanks right → ValidRanks left :=
    fun h hright entry hentry => hright entry (h.mem_iff.mp hentry)
  refine ⟨_, reciprocalRankFusion_eq hk hvector hlexical, ?_, ?_, ?_, ?_, ?_⟩
  · exact hids.nodup_iff.mpr (nodup_fusedIds _ _)
  · intro id
    rw [hids.mem_iff, mem_fusedIds]
  · intro entry hentry
    exact (fusedEntry_eq_some (mem_sorted.mp hentry)).2.2.1
  · exact sorted_vector_first.imp fun h => compareFused_ne_gt_iff.mp h.1
  · constructor
    · intro hall
      refine orderFree_of_sorted fun vectorResults' lexicalResults' hv hl => ?_
      have hsame := hall vectorResults' lexicalResults' hv hl
      rw [reciprocalRankFusion_eq hk (hvalid hv hvector) (hvalid hl hlexical)] at hsame
      exact Except.ok.inj hsame
    · intro hfree vectorResults' lexicalResults' hv hl
      rw [reciprocalRankFusion_eq hk (hvalid hv hvector) (hvalid hl hlexical),
        sortFused_eq hfree hv hl]

end Fusion

section Examples

theorem reciprocalRankFusion_three :
    let _ : LocaleCompare := ⟨compare⟩
    ∃ fused, reciprocalRankFusion [⟨['a'], 1⟩, ⟨['b'], 2⟩] [⟨['b'], 1⟩, ⟨['c'], 2⟩] id
        DEFAULT_RRF_K = .ok fused ∧
      (fused.map fun entry => entry.item).Nodup ∧
      ∀ entry ∈ fused, entry.score = fusedScore id DEFAULT_RRF_K [⟨['a'], 1⟩, ⟨['b'], 2⟩]
        [⟨['b'], 1⟩, ⟨['c'], 2⟩] entry.item := by
  intro locale
  have hlocale : Std.TransCmp (@LocaleCompare.localeCompare locale) :=
    inferInstanceAs (Std.TransOrd (List Char))
  obtain ⟨fused, hok, hnodup, -, hscore, -⟩ := @reciprocalRankFusion_spec Text id DEFAULT_RRF_K
    [⟨['a'], 1⟩, ⟨['b'], 2⟩] [⟨['b'], 1⟩, ⟨['c'], 2⟩] locale hlocale (by decide)
    (by unfold ValidRanks; decide) (by unfold ValidRanks; decide)
  exact ⟨fused, hok, hnodup, hscore⟩

/-- Two entries of one id with different items: the one presented first stays. -/
theorem reciprocalRankFusion_order_matters :
    ¬ ∀ [LocaleCompare], Std.TransCmp LocaleCompare.localeCompare →
      ∀ {α : Type} (identify : α → Text) (k : ℚ)
        (vectorResults lexicalResults vectorResults' : List (RankedRetrievalItem α)),
        0 < k → ValidRanks vectorResults → ValidRanks lexicalResults →
          vectorResults'.Perm vectorResults →
            reciprocalRankFusion vectorResults' lexicalResults identify k =
              reciprocalRankFusion vectorResults lexicalResults identify k := by
  intro h
  let locale : LocaleCompare := ⟨compare⟩
  have hsame := @h locale (inferInstanceAs (Std.TransOrd (List Char))) (Text × Nat) Prod.fst
    DEFAULT_RRF_K [⟨(['a'], 1), 1⟩, ⟨(['a'], 2), 2⟩] [] [⟨(['a'], 2), 2⟩, ⟨(['a'], 1), 1⟩]
    (by decide) (by unfold ValidRanks; decide) (by unfold ValidRanks; decide)
    (List.Perm.swap _ _ _)
  have hdiffer : ((reciprocalRankFusion [⟨(['a'], 2), 2⟩, ⟨(['a'], 1), 1⟩] [] Prod.fst
      DEFAULT_RRF_K).toOption.map fun fused => fused.map (·.item.2)) ≠
      ((reciprocalRankFusion [⟨(['a'], 1), 1⟩, ⟨(['a'], 2), 2⟩] [] Prod.fst
        DEFAULT_RRF_K).toOption.map fun fused => fused.map (·.item.2)) := by
    decide +kernel
  rw [hsame] at hdiffer
  exact hdiffer rfl

end Examples

end OpenVac.Knowledge
