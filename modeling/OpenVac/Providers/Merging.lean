/-
  File:      OpenVac/Providers/Merging.lean
  Subject:   What collecting and merging continuation items keeps.

  * `call_of_identity` -- among the kinds the client collects only a call has a call's identity.
  * `remember_cases` -- a collected item is new, or its identity is there already.
  * `merge_spec` -- the merged items are the terminal ones and those streamed ones whose
    identity no terminal item has; no call occurs twice.
-/
import OpenVac.Lib.Machine
import OpenVac.Providers.ContinuationItems

namespace OpenVac.Providers

open JsString

/-! ## 1. Calls among items -/

/-- The ids of the function calls among items. -/
def functionCallIds (items : List ResponsesInputItem) : List Text :=
  (items.filter fun item => hasType item "function_call").filterMap fun item =>
    pickString item ["call_id"]

/-- The identity of a function call with this id. -/
def callIdentity (callId : Text) : Text := "function_call:call:".toList ++ callId

theorem mem_functionCallIds {items : List ResponsesInputItem} {c : Text} :
    c ∈ functionCallIds items ↔
      ∃ item ∈ items, hasType item "function_call" = true ∧
        pickString item ["call_id"] = some c := by
  unfold functionCallIds
  constructor
  · intro h
    obtain ⟨item, hitem, hc⟩ := List.mem_filterMap.mp h
    obtain ⟨hmem, htype⟩ := List.mem_filter.mp hitem
    exact ⟨item, hmem, htype, hc⟩
  · intro h
    obtain ⟨item, hmem, htype, hc⟩ := h
    exact List.mem_filterMap.mpr ⟨item, List.mem_filter.mpr ⟨hmem, htype⟩, hc⟩

theorem functionCallIds_append (left right : List ResponsesInputItem) :
    functionCallIds (left ++ right) = functionCallIds left ++ functionCallIds right := by
  unfold functionCallIds
  rw [List.filter_append, List.filterMap_append]

theorem functionCallIds_perm {left right : List ResponsesInputItem} (h : left.Perm right) :
    (functionCallIds left).Perm (functionCallIds right) := (h.filter _).filterMap _

theorem callIdentity_inj {c d : Text} (h : callIdentity c = callIdentity d) : c = d :=
  List.append_cancel_left h

/-- A call with an id is identified by it. -/
theorem identity_of_call {item : ResponsesInputItem} {c : Text}
    (htype : hasType item "function_call" = true) (hc : pickString item ["call_id"] = some c) :
    continuationItemIdentity item = some (callIdentity c) := by
  unfold continuationItemIdentity callIdentity
  simp only [htype, hc, if_true]

theorem functionCallParts_callId {item : ResponsesInputItem} {c n a : Text}
    (h : functionCallParts item = some (c, n, a)) : pickString item ["call_id"] = some c := by
  unfold functionCallParts at h
  split at h
  · next hc _ _ =>
      injection h with h
      injection h with h
      rw [hc, h]
  · nomatch h

/-- The four kinds of items the client keeps from the stream. -/
theorem continuation_type_cases {value : Option Text} (h : isContinuationItemType value = true) :
    value = some "message".toList ∨ value = some "function_call".toList ∨
      value = some "reasoning".toList ∨ value = some "web_search_call".toList := by
  unfold isContinuationItemType at h
  simpa using h

/-- **Among these four kinds only a call has a call's identity.** -/
theorem call_of_identity {item : ResponsesInputItem} {c : Text}
    (htype : isContinuationItemType (itemType item) = true)
    (h : continuationItemIdentity item = some (callIdentity c)) :
    hasType item "function_call" = true ∧ pickString item ["call_id"] = some c := by
  have hbyId : ∀ id : Text, (itemType item).getD [] ++ ":id:".toList ++ id ≠ callIdentity c := by
    intro id he
    have hlit : ":id:".toList = [':', 'i', 'd', ':'] := by decide
    have hcall : "function_call:call:".toList =
        ['f', 'u', 'n', 'c', 't', 'i', 'o', 'n', '_', 'c', 'a', 'l', 'l', ':', 'c', 'a', 'l', 'l',
          ':'] := by decide
    have h1 : "message".toList = ['m', 'e', 's', 's', 'a', 'g', 'e'] := by decide
    have h2 : "function_call".toList =
        ['f', 'u', 'n', 'c', 't', 'i', 'o', 'n', '_', 'c', 'a', 'l', 'l'] := by decide
    have h3 : "reasoning".toList = ['r', 'e', 'a', 's', 'o', 'n', 'i', 'n', 'g'] := by decide
    have h4 : "web_search_call".toList =
        ['w', 'e', 'b', '_', 's', 'e', 'a', 'r', 'c', 'h', '_', 'c', 'a', 'l', 'l'] := by decide
    unfold callIdentity at he
    rw [hlit, hcall] at he
    rcases continuation_type_cases htype with ht | ht | ht | ht
    · rw [ht, h1] at he
      simp at he
    · rw [ht, h2] at he
      simp at he
    · rw [ht, h3] at he
      simp at he
    · rw [ht, h4] at he
      simp at he
  have hno : ∀ id : Option Text,
      id.map (fun id => (itemType item).getD [] ++ ":id:".toList ++ id) ≠
        some (callIdentity c) := by
    intro id he
    cases id with
    | none => nomatch he
    | some id =>
      injection he with he
      exact hbyId id he
  unfold continuationItemIdentity at h
  by_cases hf : hasType item "function_call" = true
  · simp only [hf, if_true] at h
    cases hid : pickString item ["call_id"] with
    | none =>
      rw [hid] at h
      exact absurd h (hno _)
    | some d =>
      rw [hid] at h
      injection h with h
      have hcd : d = c := callIdentity_inj h
      exact ⟨hf, by rw [hcd]⟩
  · simp only [hf, Bool.false_eq_true, if_false] at h
    by_cases hw : hasType item "web_search_call" = true
    · simp only [hw, if_true] at h
      cases hid : webSearchCallId item with
      | none =>
        rw [hid] at h
        exact absurd h (hno _)
      | some d =>
        rw [hid] at h
        injection h with h
        have hl : "web_search_call:call:".toList =
            'w' :: "eb_search_call:call:".toList := by decide
        have hr : "function_call:call:".toList = 'f' :: "unction_call:call:".toList := by decide
        unfold callIdentity at h
        rw [hl, hr] at h
        injection h with h
        exact absurd h (by decide)
    · simp only [hw, Bool.false_eq_true, if_false] at h
      exact absurd h (hno _)

/-! ## 2. Collecting -/

/-- No two items share an identity. -/
def DistinctIdentities (items : List IndexedContinuationItem) : Prop :=
  items.Pairwise fun v w => ∀ i, continuationItemIdentity v.item = some i →
    continuationItemIdentity w.item ≠ some i

theorem distinctIdentities_perm {items items' : List IndexedContinuationItem}
    (hp : items.Perm items') (h : DistinctIdentities items) : DistinctIdentities items' := by
  refine (hp.pairwise_iff ?_).mp h
  intro v w hvw i hw hv
  exact hvw i hv hw

/-- **Collecting an item**: it is new and pushed, or its identity is there already. -/
theorem remember_cases {target target' : List IndexedContinuationItem}
    {value : IndexedContinuationItem} (h : rememberContinuationItem target value = .ok target') :
    (target' = target ++ [value] ∧ ∀ i, continuationItemIdentity value.item = some i →
        ∀ v ∈ target, continuationItemIdentity v.item ≠ some i) ∨
      (target' = target ∧ ∃ v ∈ target, ∃ i, continuationItemIdentity v.item = some i ∧
        continuationItemIdentity value.item = some i) := by
  unfold rememberContinuationItem at h
  have hpush : ∀ {t : List IndexedContinuationItem},
      (if target.length ≥ MAX_CONTINUATION_ITEMS then .error tooManyItems
        else .ok (target ++ [value]) : Except ProviderResponseError _) = .ok t →
      t = target ++ [value] := by
    intro t ht
    split at ht
    · nomatch ht
    · injection ht with ht
      exact ht.symm
  cases hid : continuationItemIdentity value.item with
  | none =>
    simp only [hid] at h
    exact Or.inl ⟨hpush h, fun i hi => nomatch hi⟩
  | some identity =>
    simp only [hid] at h
    cases hf : target.find? fun candidate =>
        continuationItemIdentity candidate.item == some identity with
    | none =>
      simp only [hf] at h
      refine Or.inl ⟨hpush h, ?_⟩
      intro i hi v hv he
      injection hi with hi
      have hnone := List.find?_eq_none.mp hf v hv
      rw [he, ← hi] at hnone
      exact hnone (by simp)
    | some existing =>
      simp only [hf] at h
      obtain ⟨_, _, h2⟩ := Except.bind_ok_iff.mp h
      injection h2 with h2
      have hsome := List.find?_some hf
      have hmem := List.mem_of_find?_eq_some hf
      exact Or.inr ⟨h2.symm, existing, hmem, identity, by simpa using hsome, rfl⟩

/-! ## 3. Merging -/

theorem Seen.get_append (seen : Seen) (i j : Text) (item : ResponsesInputItem) :
    (Seen.get (seen ++ [(i, item)]) j).isSome = true ↔ (seen.get j).isSome = true ∨ i = j := by
  unfold Seen.get
  rw [Option.isSome_map, Option.isSome_map, List.find?_isSome, List.find?_isSome]
  simp [or_and_right, exists_or]

/-- The terminal items: what is seen afterwards, and that no call occurs twice. -/
theorem seeTerminal_spec {items : List ResponsesInputItem} {seen seen' : Seen}
    (h : items.foldlM seeTerminalItem seen = .ok seen') :
    (∀ i, (seen'.get i).isSome = true ↔
        (seen.get i).isSome = true ∨ ∃ t ∈ items, continuationItemIdentity t = some i) ∧
      (functionCallIds items).Nodup ∧
      ∀ c ∈ functionCallIds items, ¬(seen.get (callIdentity c)).isSome = true := by
  induction items generalizing seen with
  | nil =>
    injection h with h
    subst h
    refine ⟨fun i => ?_, List.nodup_nil, fun c hc => nomatch hc⟩
    simp
  | cons item rest ih =>
    rw [List.foldlM_cons] at h
    obtain ⟨seen₁, h1, h2⟩ := Except.bind_ok_iff.mp h
    obtain ⟨hseen, hnodup, hfresh⟩ := ih h2
    -- what the head adds
    have hstep : (∀ i, (seen₁.get i).isSome = true ↔
          (seen.get i).isSome = true ∨ continuationItemIdentity item = some i) ∧
        ∀ c, hasType item "function_call" = true → continuationItemIdentity item = some c →
          ¬(seen.get c).isSome = true := by
      unfold seeTerminalItem at h1
      cases hid : continuationItemIdentity item with
      | none =>
        rw [hid] at h1
        injection h1 with h1
        subst h1
        exact ⟨fun i => by simp, fun c _ hc => nomatch hc⟩
      | some identity =>
        rw [hid] at h1
        simp only at h1
        by_cases hs : (seen.get identity).isSome = true
        · rw [if_pos hs] at h1
          by_cases hf : hasType item "function_call" = true
          · rw [if_pos hf] at h1
            nomatch h1
          · rw [if_neg hf] at h1
            injection h1 with h1
            subst h1
            refine ⟨fun i => ?_, fun c hc => absurd hc hf⟩
            constructor
            · exact Or.inl
            · intro hi
              rcases hi with hi | hi
              · exact hi
              · injection hi with hi
                rw [← hi]
                exact hs
        · rw [if_neg hs] at h1
          injection h1 with h1
          subst h1
          refine ⟨fun i => ?_, fun c _ hc => ?_⟩
          · rw [Seen.get_append, Option.some.injEq]
          · injection hc with hc
            rw [← hc]
            exact hs
    have hcons : functionCallIds (item :: rest) =
        functionCallIds [item] ++ functionCallIds rest := functionCallIds_append [item] rest
    have hhead : ∀ c ∈ functionCallIds [item], hasType item "function_call" = true ∧
        continuationItemIdentity item = some (callIdentity c) := by
      intro c hc
      obtain ⟨t, ht, htype, hid⟩ := mem_functionCallIds.mp hc
      rw [List.mem_singleton] at ht
      subst ht
      exact ⟨htype, identity_of_call htype hid⟩
    refine ⟨fun i => ?_, ?_, ?_⟩
    · rw [hseen i, hstep.1 i]
      simp [or_assoc]
    · rw [hcons]
      refine List.Nodup.append ?_ hnodup ?_
      · -- one item has at most one id
        unfold functionCallIds
        by_cases hf : hasType item "function_call" = true
        · cases hid : pickString item ["call_id"] <;> simp [hf, hid]
        · simp [hf]
      · intro c hc hc'
        have hh := hhead c hc
        exact hfresh c hc' ((hstep.1 (callIdentity c)).mpr (Or.inr hh.2))
    · intro c hc hs
      rw [hcons] at hc
      rcases List.mem_append.mp hc with hc | hc
      · have hh := hhead c hc
        exact hstep.2 _ hh.1 hh.2 hs
      · exact hfresh c hc ((hstep.1 _).mpr (Or.inl hs))

theorem insertItem_perm (merged : List ResponsesInputItem) (value : IndexedContinuationItem) :
    (insertItem merged value).Perm (merged ++ [value.item]) := by
  unfold insertItem
  cases spliceIndex value.outputIndex with
  | none => exact List.Perm.refl _
  | some index =>
    have h1 : (merged.take index ++ value.item :: merged.drop index).Perm
        (value.item :: (merged.take index ++ merged.drop index)) := List.perm_middle
    rw [List.take_append_drop] at h1
    exact h1.trans (List.perm_append_singleton value.item merged).symm

/-- A streamed item whose identity has not been seen. -/
def fresh (seen : Seen) (value : IndexedContinuationItem) : Bool :=
  match continuationItemIdentity value.item with
  | none => true
  | some identity => (seen.get identity).isNone

theorem fresh_eq_true {seen : Seen} {value : IndexedContinuationItem} :
    fresh seen value = true ↔ ∀ i, continuationItemIdentity value.item = some i →
      ¬(seen.get i).isSome = true := by
  unfold fresh
  cases continuationItemIdentity value.item <;> simp

/-- Inserting items of distinct identities adds the fresh ones. -/
theorem mergeStreamed_perm {items : List IndexedContinuationItem} {merged : List ResponsesInputItem}
    {seen : Seen} {out : List ResponsesInputItem × Seen} (hd : DistinctIdentities items)
    (h : items.foldlM mergeStreamedItem (merged, seen) = .ok out) :
    out.1.Perm (merged ++ (items.filter (fresh seen)).map (·.item)) := by
  induction items generalizing merged seen with
  | nil =>
    injection h with h
    rw [← h]
    simp
  | cons value rest ih =>
    rw [List.foldlM_cons] at h
    obtain ⟨acc, h1, h2⟩ := Except.bind_ok_iff.mp h
    obtain ⟨hne, hrest⟩ := List.pairwise_cons.mp hd
    -- the new list, where the item is inserted
    have hins : ∀ {s : Seen} {r : List ResponsesInputItem × Seen},
        (if merged.length ≥ MAX_CONTINUATION_ITEMS then .error tooManyItems
          else .ok (insertItem merged value, s) : Except ProviderResponseError _) = .ok r →
        r = (insertItem merged value, s) := by
      intro s r hr
      split at hr
      · nomatch hr
      · injection hr with hr
        exact hr.symm
    have hone : ∀ l : List ResponsesInputItem,
        (insertItem merged value ++ l).Perm (merged ++ value.item :: l) := by
      intro l
      have := (insertItem_perm merged value).append_right l
      rwa [List.append_assoc] at this
    unfold mergeStreamedItem at h1
    cases hid : continuationItemIdentity value.item with
    | none =>
      simp only [hid] at h1
      have hacc := hins h1
      subst hacc
      have hf : fresh seen value = true := by
        rw [fresh_eq_true]
        intro i hi
        rw [hid] at hi
        nomatch hi
      rw [List.filter_cons_of_pos hf, List.map_cons]
      exact (ih hrest h2).trans (hone _)
    | some identity =>
      simp only [hid] at h1
      cases hs : seen.get identity with
      | some existing =>
        simp only [hs] at h1
        obtain ⟨_, _, h3⟩ := Except.bind_ok_iff.mp h1
        injection h3 with h3
        subst h3
        have hf : ¬fresh seen value = true := by
          rw [fresh_eq_true]
          intro hall
          exact hall identity hid (by rw [hs]; rfl)
        rw [List.filter_cons_of_neg hf]
        exact ih hrest h2
      | none =>
        simp only [hs] at h1
        have hacc := hins h1
        subst hacc
        have hf : fresh seen value = true := by
          rw [fresh_eq_true]
          intro i hi hsome
          rw [hid] at hi
          injection hi with hi
          rw [← hi, hs] at hsome
          nomatch hsome
        -- the others have other identities, so they are as fresh as before
        have hsame : rest.filter (fresh (seen ++ [(identity, value.item)])) =
            rest.filter (fresh seen) := by
          apply List.filter_congr
          intro w hw
          rw [Bool.eq_iff_iff, fresh_eq_true, fresh_eq_true]
          constructor
          · intro hall i hi hsome
            exact hall i hi ((Seen.get_append _ _ _ _).mpr (Or.inl hsome))
          · intro hall i hi hsome
            rcases (Seen.get_append _ _ _ _).mp hsome with hsome | he
            · exact hall i hi hsome
            · exact hne w hw identity hid (by rw [hi, he])
        have hp := ih hrest h2
        rw [hsame] at hp
        rw [List.filter_cons_of_pos hf, List.map_cons]
        exact hp.trans (hone _)

/-- No terminal item has the streamed item's identity. -/
def NotAmong (terminalItems : List ResponsesInputItem) (value : IndexedContinuationItem) : Prop :=
  ∀ i, continuationItemIdentity value.item = some i →
    ∀ t ∈ terminalItems, continuationItemIdentity t ≠ some i

/-- **What merging keeps**: the terminal items and the streamed ones that are not among them;
    no call occurs twice. -/
theorem merge_spec {terminalItems merged : List ResponsesInputItem}
    {streamedItems : List IndexedContinuationItem} (hd : DistinctIdentities streamedItems)
    (h : mergeResponseOutputItems terminalItems streamedItems = .ok merged) :
    (∀ item, item ∈ merged ↔ item ∈ terminalItems ∨
        ∃ v ∈ streamedItems, v.item = item ∧ NotAmong terminalItems v) ∧
      (functionCallIds merged).Nodup := by
  unfold mergeResponseOutputItems at h
  split at h
  · nomatch h
  obtain ⟨seen, hseen, h⟩ := Except.bind_ok_iff.mp h
  obtain ⟨out, hout, h⟩ := Except.bind_ok_iff.mp h
  injection h with h
  subst h
  obtain ⟨hget, hnodup, -⟩ := seeTerminal_spec hseen
  have hsort := List.perm_insertionSort
    (fun left right : IndexedContinuationItem => sortKey left ≤ sortKey right) streamedItems
  have hdistinct := distinctIdentities_perm hsort.symm hd
  have hperm := mergeStreamed_perm hdistinct hout
  have hfresh : ∀ v, fresh seen v = true ↔ NotAmong terminalItems v := by
    intro v
    rw [fresh_eq_true]
    constructor
    · intro hall i hi t ht he
      exact hall i hi ((hget i).mpr (Or.inr ⟨t, ht, he⟩))
    · intro hall i hi hs
      rcases (hget i).mp hs with hs | ht
      · nomatch hs
      · obtain ⟨t, ht, he⟩ := ht
        exact hall i hi t ht he
  refine ⟨fun item => ?_, ?_⟩
  · rw [hperm.mem_iff, List.mem_append, List.mem_map]
    constructor
    · intro hmem
      rcases hmem with hmem | hmem
      · exact Or.inl hmem
      · obtain ⟨v, hv, he⟩ := hmem
        obtain ⟨hv, hf⟩ := List.mem_filter.mp hv
        exact Or.inr ⟨v, hsort.mem_iff.mp hv, he, (hfresh v).mp hf⟩
    · intro hmem
      rcases hmem with hmem | hmem
      · exact Or.inl hmem
      · obtain ⟨v, hv, he, hf⟩ := hmem
        exact Or.inr ⟨v, List.mem_filter.mpr ⟨hsort.mem_iff.mpr hv, (hfresh v).mpr hf⟩, he⟩
  · rw [(functionCallIds_perm hperm).nodup_iff, functionCallIds_append]
    refine List.Nodup.append hnodup ?_ ?_
    · -- two calls of one id would share an identity
      unfold functionCallIds
      rw [List.Nodup, List.pairwise_filterMap, List.pairwise_filter, List.pairwise_map]
      refine (hdistinct.filter (fresh seen)).imp ?_
      intro v w hvw hv hw c hc d hd' he
      subst he
      exact hvw _ (identity_of_call hv hc) (identity_of_call hw hd')
    · intro c hc hc'
      obtain ⟨item, hmem, htype, hid⟩ := mem_functionCallIds.mp hc'
      obtain ⟨v, hv, he⟩ := List.mem_map.mp hmem
      obtain ⟨t, ht, ttype, tid⟩ := mem_functionCallIds.mp hc
      have hna := (hfresh v).mp (List.mem_filter.mp hv).2
      rw [← he] at htype hid
      exact hna _ (identity_of_call htype hid) t ht (identity_of_call ttype tid)

end OpenVac.Providers
