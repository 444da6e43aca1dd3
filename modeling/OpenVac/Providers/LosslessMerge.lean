/-
  File:      OpenVac/Providers/LosslessMerge.lean
  Subject:   Merging the terminal items with the streamed ones restores the output they come from:
             `mergeResponseOutputItems` of server/providers/deepseek-responses.ts.

  * `Settled` -- the merged list is the output as far as its items have been seen, in its order.
  * `Due` -- what is missing in front of the next streamed item has been streamed before it.
  * `mergeResponseOutputItems_restores` -- with every missing item streamed, the whole output.
-/
import OpenVac.Providers.Merging

namespace OpenVac.Providers

open JsString

/-! ## 1. One more item at its place -/

/-- Where everything in front of `x` is kept, letting `x` in puts it at its own place. -/
theorem filter_insert {α : Type} {p q : α → Bool} {before after : List α} {x : α}
    (hbefore : ∀ a ∈ before, p a = true) (hx : p x = false) (hqx : q x = true)
    (hq : ∀ a, a ∈ before ∨ a ∈ after → q a = p a) :
    (before ++ x :: after).filter q =
      ((before ++ x :: after).filter p).take before.length ++
        x :: ((before ++ x :: after).filter p).drop before.length := by
  have hp : (before ++ x :: after).filter p = before ++ after.filter p := by
    rw [List.filter_append, List.filter_eq_self.mpr hbefore, List.filter_cons_of_neg (by simp [hx])]
  have hkeep : before.filter q = before := by
    refine List.filter_eq_self.mpr fun a ha => ?_
    rw [hq a (Or.inl ha)]
    exact hbefore a ha
  have hrest : after.filter q = after.filter p :=
    List.filter_congr fun a ha => hq a (Or.inr ha)
  rw [hp, List.take_left, List.drop_left, List.filter_append, hkeep, List.filter_cons_of_pos hqx,
    hrest]

/-- A subsequence of distinct items is what its members leave of the whole. -/
theorem filter_eq_of_sublist {α : Type} {p : α → Bool} {part whole : List α} (hnodup : whole.Nodup)
    (hsub : part.Sublist whole) (hp : ∀ a ∈ whole, p a = true ↔ a ∈ part) :
    whole.filter p = part := by
  induction hsub with
  | slnil => rfl
  | cons a hsub ih =>
    obtain ⟨hnot, hrest⟩ := List.nodup_cons.mp hnodup
    have ha : ¬ p a = true := by
      rw [hp a List.mem_cons_self]
      exact fun h => hnot (hsub.subset h)
    rw [List.filter_cons_of_neg ha]
    exact ih hrest fun b hb => hp b (List.mem_cons_of_mem _ hb)
  | cons_cons a hsub ih =>
    obtain ⟨hnot, hrest⟩ := List.nodup_cons.mp hnodup
    have ha : p a = true := (hp a List.mem_cons_self).mpr List.mem_cons_self
    rw [List.filter_cons_of_pos ha, ih hrest]
    intro b hb
    have hne : b ≠ a := fun h => hnot (h ▸ hb)
    rw [hp b (List.mem_cons_of_mem _ hb), List.mem_cons]
    simp [hne]

/-! ## 2. An output and what is sent of it -/

/-- Every item has an identity, and no two have the same. -/
structure Identified (output : List ResponsesInputItem) : Prop where
  isSome : ∀ item ∈ output, (continuationItemIdentity item).isSome = true
  nodup : (output.map continuationItemIdentity).Nodup

/-- A streamed item of the output, with its place there. -/
def StreamedAt (output : List ResponsesInputItem) (value : IndexedContinuationItem) (i : Nat) :
    Prop :=
  (∃ index, value.outputIndex = some index ∧ index.value = i) ∧ output[i]? = some value.item

namespace Identified

variable {output : List ResponsesInputItem}

theorem eq_of_identity (h : Identified output) {a b : ResponsesInputItem} (ha : a ∈ output)
    (hb : b ∈ output) (he : continuationItemIdentity a = continuationItemIdentity b) : a = b :=
  List.inj_on_of_nodup_map h.nodup ha hb he

/-- An item has one place only. -/
theorem place_eq (h : Identified output) {i j : Nat} {item : ResponsesInputItem}
    (hi : output[i]? = some item) (hj : output[j]? = some item) : i = j := by
  have hnodup : output.Nodup := h.nodup.of_map _
  obtain ⟨hlt, hival⟩ := List.getElem?_eq_some_iff.mp hi
  obtain ⟨hjlt, hjval⟩ := List.getElem?_eq_some_iff.mp hj
  exact (hnodup.getElem_inj_iff).mp (hival.trans hjval.symm)

end Identified

theorem StreamedAt.sortKey {output : List ResponsesInputItem} {value : IndexedContinuationItem}
    {i : Nat} (h : StreamedAt output value i) : sortKey value = i := by
  obtain ⟨⟨index, hindex, hvalue⟩, -⟩ := h
  unfold OpenVac.Providers.sortKey
  rw [hindex]
  exact hvalue

theorem StreamedAt.spliceIndex {output : List ResponsesInputItem} {value : IndexedContinuationItem}
    {i : Nat} (h : StreamedAt output value i) (hlen : output.length ≤ MAX_CONTINUATION_ITEMS) :
    spliceIndex value.outputIndex = some i := by
  obtain ⟨⟨index, hindex, hvalue⟩, hitem⟩ := h
  have hlt : i < output.length := (List.getElem?_eq_some_iff.mp hitem).1
  unfold OpenVac.Providers.spliceIndex
  rw [hindex]
  dsimp only
  have hden : index.value.den = 1 := by rw [hvalue]; exact Rat.den_natCast i
  have hnum : index.value.num = (i : ℤ) := by rw [hvalue]; exact Rat.num_natCast i
  rw [if_pos ⟨hden, by omega, by omega⟩, hnum, Int.toNat_natCast]

/-- An item agrees with itself. -/
theorem assertCompatibleContinuationItems_self (item : ResponsesInputItem) :
    assertCompatibleContinuationItems item item = .ok () := by
  unfold assertCompatibleContinuationItems
  simp

/-! ## 3. The items seen -/

/-- The item's identity has been seen. -/
def Seen.knows (seen : Seen) (item : ResponsesInputItem) : Bool :=
  ((continuationItemIdentity item).bind seen.get).isSome

theorem Seen.knows_append {seen : Seen} {identity : Text} {item other : ResponsesInputItem} :
    Seen.knows (seen ++ [(identity, item)]) other = true ↔
      seen.knows other = true ∨ continuationItemIdentity other = some identity := by
  unfold Seen.knows
  cases hid : continuationItemIdentity other with
  | none => simp
  | some i =>
    rw [Option.bind_some, Option.bind_some, Seen.get_append, Option.some.injEq]
    constructor
    · rintro (h | h)
      · exact Or.inl h
      · exact Or.inr h.symm
    · rintro (h | h)
      · exact Or.inl h
      · exact Or.inr h.symm

theorem Seen.mem_of_get {seen : Seen} {identity : Text} {item : ResponsesInputItem}
    (h : seen.get identity = some item) : (identity, item) ∈ seen := by
  unfold Seen.get at h
  obtain ⟨entry, hfind, rfl⟩ := Option.map_eq_some_iff.mp h
  have heq : entry.1 = identity := by simpa using List.find?_some hfind
  rw [← heq]
  exact List.mem_of_find?_eq_some hfind

/-- What the loop over the terminal items has seen: these items and no others. -/
structure SeenOf (output : List ResponsesInputItem) (seen : Seen) : Prop where
  mem : ∀ entry ∈ seen, entry.2 ∈ output ∧ continuationItemIdentity entry.2 = some entry.1

theorem SeenOf.append {output : List ResponsesInputItem} {seen : Seen} (h : SeenOf output seen)
    {identity : Text} {item : ResponsesInputItem} (hmem : item ∈ output)
    (hid : continuationItemIdentity item = some identity) :
    SeenOf output (seen ++ [(identity, item)]) := by
  refine ⟨fun entry hentry => ?_⟩
  rcases List.mem_append.mp hentry with hentry | hentry
  · exact h.mem entry hentry
  · obtain rfl := List.mem_singleton.mp hentry
    exact ⟨hmem, hid⟩

/-- **The terminal items**: a subsequence of the output passes the loop, and its items are known. -/
theorem seeTerminal_restores {output terminalItems : List ResponsesInputItem} {seen : Seen}
    (hout : Identified output) (hseen : SeenOf output seen)
    (hmem : ∀ item ∈ terminalItems, item ∈ output)
    (hnodup : (terminalItems.map continuationItemIdentity).Nodup)
    (hnew : ∀ item ∈ terminalItems, seen.knows item = false) :
    ∃ seen', terminalItems.foldlM seeTerminalItem seen = .ok seen' ∧ SeenOf output seen' ∧
      ∀ item, seen'.knows item = true ↔ seen.knows item = true ∨
        ∃ t ∈ terminalItems, continuationItemIdentity item = continuationItemIdentity t ∧
          (continuationItemIdentity t).isSome = true := by
  induction terminalItems generalizing seen with
  | nil => exact ⟨seen, rfl, hseen, fun item => by simp⟩
  | cons item rest ih =>
    obtain ⟨hnot, hrest⟩ := List.nodup_cons.mp (List.map_cons ▸ hnodup)
    have hhere : item ∈ output := hmem item List.mem_cons_self
    obtain ⟨identity, hid⟩ := Option.isSome_iff_exists.mp (hout.isSome item hhere)
    have hfresh : (seen.get identity).isSome = false := by
      have h := hnew item List.mem_cons_self
      unfold Seen.knows at h
      rw [hid, Option.bind_some] at h
      exact h
    have hstep : seeTerminalItem seen item = .ok (seen ++ [(identity, item)]) := by
      unfold seeTerminalItem
      rw [hid]
      simp [hfresh]
    obtain ⟨seen', hfold, hseen', hknows⟩ := ih (hseen.append hhere hid)
      (fun other hother => hmem other (List.mem_cons_of_mem _ hother)) hrest
      (fun other hother => by
        rw [Bool.eq_false_iff, ne_eq, Seen.knows_append]
        rintro (hknown | hsame)
        · rw [hnew other (List.mem_cons_of_mem _ hother)] at hknown
          nomatch hknown
        · exact hnot (List.mem_map.mpr ⟨other, hother, by rw [hsame, hid]⟩))
    refine ⟨seen', ?_, hseen', fun other => ?_⟩
    · rw [List.foldlM_cons, hstep]
      exact hfold
    · rw [hknows other, Seen.knows_append]
      constructor
      · rintro ((h | h) | ⟨t, ht, h, hs⟩)
        · exact Or.inl h
        · exact Or.inr ⟨item, List.mem_cons_self, by rw [h, hid], by simp [hid]⟩
        · exact Or.inr ⟨t, List.mem_cons_of_mem _ ht, h, hs⟩
      · rintro (h | ⟨t, ht, h, hs⟩)
        · exact Or.inl (Or.inl h)
        · rcases List.mem_cons.mp ht with rfl | ht
          · exact Or.inl (Or.inr (by rw [h, hid]))
          · exact Or.inr ⟨t, ht, h, hs⟩

/-! ## 4. The streamed items -/

/-- The merged list is the output as far as it is known, in its order. -/
structure Settled (output : List ResponsesInputItem) (acc : List ResponsesInputItem × Seen) :
    Prop where
  merged : acc.1 = output.filter acc.2.knows
  seen : SeenOf output acc.2

/-- What is missing in front of a streamed item is streamed before it. -/
def Due (output : List ResponsesInputItem) (seen : Seen) (values : List IndexedContinuationItem) :
    Prop :=
  ∀ item ∈ output, seen.knows item = true ∨ ∃ v ∈ values, v.item = item

/-- **One streamed item** finds its place, or is there already. -/
theorem mergeStreamedItem_settled {output : List ResponsesInputItem}
    {acc : List ResponsesInputItem × Seen} {value : IndexedContinuationItem} {i : Nat}
    (hout : Identified output) (hlen : output.length ≤ MAX_CONTINUATION_ITEMS)
    (hacc : Settled output acc) (hvalue : StreamedAt output value i)
    (hfront : ∀ item ∈ output.take i, acc.2.knows item = true) :
    ∃ acc', mergeStreamedItem acc value = .ok acc' ∧ Settled output acc' ∧
      acc'.2.knows value.item = true ∧
      ∀ item, acc.2.knows item = true → acc'.2.knows item = true := by
  have hmem : value.item ∈ output := List.mem_of_getElem? hvalue.2
  obtain ⟨identity, hid⟩ := Option.isSome_iff_exists.mp (hout.isSome _ hmem)
  unfold mergeStreamedItem
  simp only [hid]
  cases hget : acc.2.get identity with
  | some existing =>
    -- the one seen is the item itself
    have hentry := hacc.seen.mem _ (Seen.mem_of_get hget)
    have hsame : existing = value.item :=
      hout.eq_of_identity hentry.1 hmem (hentry.2.trans hid.symm)
    refine ⟨acc, ?_, hacc, ?_, fun _ h => h⟩
    · simp only [hsame, assertCompatibleContinuationItems_self]
      rfl
    · unfold Seen.knows
      rw [hid, Option.bind_some, hget]
      rfl
  | none =>
    have hunknown : acc.2.knows value.item = false := by
      unfold Seen.knows
      rw [hid, Option.bind_some, hget]
      rfl
    -- one item of the output is missing, so there is room
    have hroom : acc.1.length < output.length := by
      rw [hacc.merged]
      refine List.length_filter_lt_length_iff_exists.mpr ⟨value.item, hmem, ?_⟩
      simp [hunknown]
    have hknows : ∀ item ∈ output, item ≠ value.item →
        Seen.knows (acc.2 ++ [(identity, value.item)]) item = acc.2.knows item := by
      intro item hitem hne
      rw [Bool.eq_iff_iff, Seen.knows_append]
      refine ⟨?_, Or.inl⟩
      rintro (h | h)
      · exact h
      · exact absurd (hout.eq_of_identity hitem hmem (h.trans hid.symm)) hne
    have hinsert : insertItem acc.1 value =
        output.filter (Seen.knows (acc.2 ++ [(identity, value.item)])) := by
      obtain ⟨hi, hval⟩ := List.getElem?_eq_some_iff.mp hvalue.2
      have hsplit : output = output.take i ++ value.item :: output.drop (i + 1) := by
        rw [← hval, ← List.drop_eq_getElem_cons hi, List.take_append_drop]
      have hlength : (output.take i).length = i := by
        rw [List.length_take]
        omega
      have hnodup : (output.take i ++ value.item :: output.drop (i + 1)).Nodup :=
        hsplit ▸ hout.nodup.of_map _
      have hother : ∀ item, item ∈ output.take i ∨ item ∈ output.drop (i + 1) →
          item ∈ output ∧ item ≠ value.item := by
        intro item hitem
        have hno := (List.nodup_middle.mp hnodup)
        rw [List.nodup_cons, List.mem_append] at hno
        refine ⟨?_, ?_⟩
        · rcases hitem with h | h
          · exact List.mem_of_mem_take h
          · exact List.mem_of_mem_drop h
        · rintro rfl
          exact hno.1 hitem
      have hfilter := filter_insert (q := Seen.knows (acc.2 ++ [(identity, value.item)])) hfront
        hunknown (Seen.knows_append.mpr (Or.inr hid))
        fun item hitem => hknows item (hother item hitem).1 (hother item hitem).2
      rw [← hsplit, hlength, ← hacc.merged] at hfilter
      unfold insertItem
      rw [hvalue.spliceIndex hlen, hfilter]
    refine ⟨(insertItem acc.1 value, acc.2 ++ [(identity, value.item)]), ?_, ⟨hinsert, ?_⟩, ?_,
      fun item h => Seen.knows_append.mpr (Or.inl h)⟩
    · rw [if_neg (by omega)]
    · exact hacc.seen.append hmem hid
    · exact Seen.knows_append.mpr (Or.inr hid)

/-- **All streamed items**, in the order of their places: what was due is known in the end. -/
theorem mergeStreamed_restores {output : List ResponsesInputItem}
    {values : List IndexedContinuationItem} {acc : List ResponsesInputItem × Seen}
    (hout : Identified output) (hlen : output.length ≤ MAX_CONTINUATION_ITEMS)
    (hacc : Settled output acc) (hvalues : ∀ v ∈ values, ∃ i, StreamedAt output v i)
    (hsorted : values.Pairwise fun v w => sortKey v ≤ sortKey w) (hdue : Due output acc.2 values) :
    ∃ seen, values.foldlM mergeStreamedItem acc = .ok (output, seen) := by
  induction values generalizing acc with
  | nil =>
    have hall : output.filter acc.2.knows = output := by
      refine List.filter_eq_self.mpr fun item hitem => ?_
      rcases hdue item hitem with h | ⟨v, hv, -⟩
      · exact h
      · nomatch hv
    refine ⟨acc.2, ?_⟩
    rw [← hall, ← hacc.merged]
    rfl
  | cons value rest ih =>
    obtain ⟨hle, hrest⟩ := List.pairwise_cons.mp hsorted
    obtain ⟨i, hi⟩ := hvalues value List.mem_cons_self
    -- an item further in front that is still missing would come earlier
    have hfront : ∀ item ∈ output.take i, acc.2.knows item = true := by
      intro item hitem
      obtain ⟨j, hj⟩ := List.mem_iff_getElem?.mp hitem
      have hlt : j < i := by
        have h := (List.getElem?_eq_some_iff.mp hj).1
        rw [List.length_take] at h
        omega
      rw [List.getElem?_take_of_lt hlt] at hj
      rcases hdue item (List.mem_of_getElem? hj) with h | ⟨v, hv, hsame⟩
      · exact h
      · obtain ⟨k, hk⟩ := hvalues v hv
        have hplace : k = j := hout.place_eq hk.2 (by rw [hsame, hj])
        have hkey : i ≤ k := by
          rcases List.mem_cons.mp hv with rfl | hv
          · have heq : k = i := hout.place_eq hk.2 hi.2
            omega
          · have hkeys := hle v hv
            rw [hi.sortKey, hk.sortKey] at hkeys
            exact_mod_cast hkeys
        omega
    obtain ⟨acc', hstep, hacc', hknown, hkeep⟩ :=
      mergeStreamedItem_settled hout hlen hacc hi hfront
    obtain ⟨seen, hfold⟩ := ih hacc'
      (fun v hv => hvalues v (List.mem_cons_of_mem _ hv)) hrest
      (fun item hitem => by
        rcases hdue item hitem with h | ⟨v, hv, hsame⟩
        · exact Or.inl (hkeep item h)
        · rcases List.mem_cons.mp hv with rfl | hv
          · exact Or.inl (hsame ▸ hknown)
          · exact Or.inr ⟨v, hv, hsame⟩)
    refine ⟨seen, ?_⟩
    rw [List.foldlM_cons, hstep]
    exact hfold

/-! ## 5. Nothing is lost -/

/-- **Nothing is lost**: of an output whose items have identities of their own, a subsequence as the
    terminal items and the others streamed, in any order, merge to the output. -/
theorem mergeResponseOutputItems_restores {output terminalItems : List ResponsesInputItem}
    {streamedItems : List IndexedContinuationItem}
    (hlen : output.length ≤ MAX_CONTINUATION_ITEMS) (hout : Identified output)
    (hterminal : terminalItems.Sublist output)
    (hstreamed : ∀ v ∈ streamedItems, ∃ i, StreamedAt output v i)
    (hcover : ∀ item ∈ output, item ∉ terminalItems → ∃ v ∈ streamedItems, v.item = item) :
    mergeResponseOutputItems terminalItems streamedItems = .ok output := by
  have hshort : ¬ terminalItems.length > MAX_CONTINUATION_ITEMS := by
    have h := hterminal.length_le
    omega
  have hnothing : ∀ item, Seen.knows [] item = false := by
    intro item
    unfold Seen.knows
    cases continuationItemIdentity item <;> rfl
  obtain ⟨seen, hfold, hseen, hknows⟩ := @seeTerminal_restores output terminalItems [] hout
    ⟨fun _ h => nomatch h⟩ (fun item hitem => hterminal.subset hitem)
    (hout.nodup.sublist (hterminal.map _)) (fun item _ => hnothing item)
  -- what the terminal items make known of the output are these items
  have hterminalKnown : ∀ item ∈ output, seen.knows item = true ↔ item ∈ terminalItems := by
    intro item hitem
    rw [hknows item, hnothing item]
    constructor
    · rintro (h | ⟨t, ht, hsame, -⟩)
      · nomatch h
      · rw [hout.eq_of_identity hitem (hterminal.subset ht) hsame]
        exact ht
    · intro h
      exact Or.inr ⟨item, h, rfl, hout.isSome item hitem⟩
  have hsettled : Settled output (terminalItems, seen) :=
    ⟨(filter_eq_of_sublist (hout.nodup.of_map _) hterminal hterminalKnown).symm, hseen⟩
  have hsort := List.perm_insertionSort
    (fun left right : IndexedContinuationItem => sortKey left ≤ sortKey right) streamedItems
  have hpairwise := List.pairwise_insertionSort
    (fun left right : IndexedContinuationItem => sortKey left ≤ sortKey right) streamedItems
  obtain ⟨seen', hmerged⟩ := mergeStreamed_restores hout hlen hsettled
    (fun v hv => hstreamed v (hsort.mem_iff.mp hv)) hpairwise
    (fun item hitem => by
      by_cases h : item ∈ terminalItems
      · exact Or.inl ((hterminalKnown item hitem).mpr h)
      · obtain ⟨v, hv, hsame⟩ := hcover item hitem h
        exact Or.inr ⟨v, hsort.mem_iff.mpr hv, hsame⟩)
  unfold mergeResponseOutputItems
  rw [if_neg hshort, hfold]
  show (List.foldlM mergeStreamedItem (terminalItems, seen) _ >>= fun merged =>
    pure merged.1) = _
  rw [hmerged]
  rfl

section Examples

def sentReasoning : ResponsesInputItem :=
  [("type".toList, .str "reasoning".toList), ("id".toList, .str "r1".toList)]

def sentMessage : ResponsesInputItem :=
  [("type".toList, .str "message".toList), ("id".toList, .str "m1".toList)]

def sentCall : ResponsesInputItem :=
  [("type".toList, .str "function_call".toList), ("call_id".toList, .str "c1".toList)]

theorem mergeResponseOutputItems_three :
    mergeResponseOutputItems [sentMessage]
      [⟨some ⟨['2'], 2⟩, sentCall⟩, ⟨some ⟨['0'], 0⟩, sentReasoning⟩] =
      .ok [sentReasoning, sentMessage, sentCall] := by
  refine mergeResponseOutputItems_restores (by decide) ⟨by decide +kernel, by decide +kernel⟩
    (.cons _ (.cons_cons _ (.cons _ .slnil))) ?_ ?_
  · intro v hv
    rcases List.mem_cons.mp hv with rfl | hv
    · exact ⟨2, ⟨_, rfl, by simp⟩, rfl⟩
    · obtain rfl := List.mem_singleton.mp hv
      exact ⟨0, ⟨_, rfl, by simp⟩, rfl⟩
  · intro item hitem hmissing
    simp only [List.mem_cons, List.not_mem_nil, or_false] at hitem hmissing
    rcases hitem with rfl | rfl | rfl
    · exact ⟨_, List.mem_cons_of_mem _ List.mem_cons_self, rfl⟩
    · exact absurd rfl hmissing
    · exact ⟨_, List.mem_cons_self, rfl⟩

end Examples

end OpenVac.Providers
