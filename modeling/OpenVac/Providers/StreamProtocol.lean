/-
  File:      OpenVac/Providers/StreamProtocol.lean
  Subject:   The Responses stream as a protocol: one finish at most, every call once, and when
             the collected items continue a paired input.

  * `heard` -- the events before the first terminal one, and that one.
  * `CallInvariant` -- the emitted calls are the calls among the collected items.
  * `handleEvent_cases` -- one event.
  * `streamFrom_spec` -- all events; `stream_protocol` -- the protocol.
-/
import Mathlib.Data.List.Perm.Basic
import OpenVac.Providers.Pairing
import OpenVac.Providers.ResponsesStream

namespace OpenVac.Providers

open JsString JsUrl

/-! ## 1. Notions -/

def ResponsesStreamEvent.isFinish : ResponsesStreamEvent → Bool
  | .finish _ => true
  | _ => false

def ResponsesStreamEvent.callId? : ResponsesStreamEvent → Option Text
  | .functionCall callId _ _ => some callId
  | _ => none

/-- The ids of the emitted function calls, in order. -/
def emittedIds (events : List ResponsesStreamEvent) : List Text :=
  events.filterMap ResponsesStreamEvent.callId?

theorem emittedIds_append (left right : List ResponsesStreamEvent) :
    emittedIds (left ++ right) = emittedIds left ++ emittedIds right := List.filterMap_append

def NoFinish (events : List ResponsesStreamEvent) : Prop := ∀ e ∈ events, e.isFinish = false

theorem noFinish_append {left right : List ResponsesStreamEvent} (hl : NoFinish left)
    (hr : NoFinish right) : NoFinish (left ++ right) := by
  intro e he
  rcases List.mem_append.mp he with he | he
  · exact hl e he
  · exact hr e he

/-- The call an `output_item.done` event completes. -/
def doneCallId (event : UnknownRecord) : Option Text :=
  let item := asRecord (property event "item")
  if pickString event ["type"] == some "response.output_item.done".toList &&
      hasType item "function_call" then
    pickString item ["call_id"]
  else none

/-- The items of a terminal event's response. -/
def terminalItems (event : UnknownRecord) : List ResponsesInputItem :=
  responseOutputItems (asRecord (property event "response"))

structure Heard where
  before : List UnknownRecord
  terminal : Option UnknownRecord

section Hearing

variable [JsonNumber]

/-- A parsed value that is a terminal event. -/
def isTerminal (rawEvent : Json) : Bool :=
  match pickString (asRecord (some rawEvent)) ["type"] with
  | some eventType => (terminalResponseStatus eventType).isSome
  | none => false

/-- The admitted events before the first terminal one, and that one. -/
def heard (last : Num) : List Json → Heard
  | [] => ⟨[], none⟩
  | rawEvent :: rest =>
      match admitEvent last rawEvent with
      | .skip => heard last rest
      | .backwards _ => ⟨[], none⟩
      | .semantic event eventType last =>
          if (terminalResponseStatus eventType).isSome then ⟨[], some event⟩
          else
            let after := heard last rest
            ⟨event :: after.before, after.terminal⟩

/-- **When the collected items continue an input.** Let `items` be the terminal response's: none
    is an output of a call; a streamed call that shares its identity with one of them is a call
    among them; no call is one of the input's. -/
def Continues (events : List Json) (input : List ResponsesInputItem) : Prop :=
  let hearing := heard StreamState.initial.lastSequence events
  let calls := hearing.before.filterMap doneCallId
  let items := (hearing.terminal.map terminalItems).getD []
  (∀ item ∈ items, hasType item "function_call_output" = false) ∧
    (∀ c ∈ calls, (∃ item ∈ items, continuationItemIdentity item = some (callIdentity c)) →
      c ∈ functionCallIds items) ∧
    ∀ c, c ∈ calls ∨ c ∈ functionCallIds items → c ∉ functionCallIds input

theorem admitEvent_semantic {last last' : Num} {rawEvent : Json} {event : UnknownRecord}
    {eventType : Text} (h : admitEvent last rawEvent = .semantic event eventType last') :
    event = asRecord (some rawEvent) ∧ pickString event ["type"] = some eventType := by
  unfold admitEvent at h
  cases ht : pickString (asRecord (some rawEvent)) ["type"] with
  | none =>
    simp only [ht] at h
    nomatch h
  | some type =>
    simp only [ht] at h
    have hfin : ∀ {n : Num}, Admission.semantic (asRecord (some rawEvent)) type n =
        .semantic event eventType last' →
        event = asRecord (some rawEvent) ∧ pickString event ["type"] = some eventType := by
      intro n he
      injection he with h1 h2
      subst h1 h2
      exact ⟨rfl, ht⟩
    split at h
    · split at h
      · nomatch h
      · split at h
        · nomatch h
        · exact hfin h
    · exact hfin h

/-- Without a terminal event nothing terminal is heard. -/
theorem heard_terminal_none {events : List Json} {last : Num}
    (h : ∀ rawEvent ∈ events, isTerminal rawEvent = false) : (heard last events).terminal = none := by
  induction events generalizing last with
  | nil => rfl
  | cons rawEvent rest ih =>
    have hrest := fun {l : Num} => @ih l fun e he => h e (List.mem_cons_of_mem _ he)
    have hhead := h rawEvent List.mem_cons_self
    rw [heard]
    cases hadmit : admitEvent last rawEvent with
    | skip => exact hrest
    | backwards sequence => rfl
    | semantic event eventType last' =>
      obtain ⟨hev, htype⟩ := admitEvent_semantic hadmit
      have hno : (terminalResponseStatus eventType).isSome = false := by
        unfold isTerminal at hhead
        rw [← hev, htype] at hhead
        exact hhead
      simp only [hno, Bool.false_eq_true, if_false]
      exact hrest

end Hearing

/-! ## 2. The invariant of the calls -/

/-- Collected items: distinct identities, the four kinds, complete calls. -/
structure Collected (items : List IndexedContinuationItem) : Prop where
  identities : DistinctIdentities items
  types : ∀ v ∈ items, isContinuationItemType (itemType v.item) = true
  complete : ∀ v ∈ items, hasType v.item "function_call" = true →
    (functionCallParts v.item).isSome = true

/-- The calls among collected items. -/
def collectedCalls (items : List IndexedContinuationItem) : List Text :=
  functionCallIds (items.map (·.item))

theorem mem_collectedCalls {items : List IndexedContinuationItem} {c : Text} :
    c ∈ collectedCalls items ↔ ∃ v ∈ items, hasType v.item "function_call" = true ∧
      pickString v.item ["call_id"] = some c := by
  unfold collectedCalls
  rw [mem_functionCallIds]
  constructor
  · intro h
    obtain ⟨item, hmem, htype, hid⟩ := h
    obtain ⟨v, hv, he⟩ := List.mem_map.mp hmem
    subst he
    exact ⟨v, hv, htype, hid⟩
  · intro h
    obtain ⟨v, hv, htype, hid⟩ := h
    exact ⟨v.item, List.mem_map.mpr ⟨v, hv, rfl⟩, htype, hid⟩

/-- The emitted calls are the calls among the collected items. -/
structure CallInvariant (s : StreamState) : Prop where
  distinct : s.emittedCalls.Nodup
  collected : Collected s.streamedContinuationItems
  emitted : ∀ c, c ∈ s.emittedCalls ↔ c ∈ collectedCalls s.streamedContinuationItems

theorem callInvariant_initial : CallInvariant .initial where
  distinct := List.nodup_nil
  collected := ⟨List.Pairwise.nil, (fun _ hv => nomatch hv), (fun _ hv => nomatch hv)⟩
  emitted := fun _ => Iff.rfl

/-- The invariant speaks of the calls and the collected items only. -/
theorem CallInvariant.congr {s s' : StreamState} (h : CallInvariant s)
    (h1 : s'.emittedCalls = s.emittedCalls)
    (h2 : s'.streamedContinuationItems = s.streamedContinuationItems) : CallInvariant s' := by
  constructor
  · rw [h1]
    exact h.distinct
  · rw [h2]
    exact h.collected
  · rw [h1, h2]
    exact h.emitted

/-- **Collecting one more item**: what it adds to the calls is its own call. -/
theorem remember_collected {items items' : List IndexedContinuationItem}
    {value : IndexedContinuationItem} (h : Collected items)
    (hr : rememberContinuationItem items value = .ok items')
    (ht : isContinuationItemType (itemType value.item) = true)
    (hc : hasType value.item "function_call" = true →
      (functionCallParts value.item).isSome = true) :
    Collected items' ∧ ∀ c, c ∈ collectedCalls items' ↔ c ∈ collectedCalls items ∨
      (hasType value.item "function_call" = true ∧
        pickString value.item ["call_id"] = some c) := by
  rcases remember_cases hr with ⟨he, hnew⟩ | ⟨he, v, hv, i, hvi, hi⟩
  · subst he
    refine ⟨⟨?_, ?_, ?_⟩, fun c => ?_⟩
    · unfold DistinctIdentities
      rw [List.pairwise_append]
      refine ⟨h.identities, List.pairwise_singleton _ _, ?_⟩
      intro v hv w hw i hvi hwi
      rw [List.mem_singleton] at hw
      subst hw
      exact hnew i hwi v hv hvi
    · intro v hv
      rcases List.mem_append.mp hv with hv | hv
      · exact h.types v hv
      · rw [List.mem_singleton] at hv
        subst hv
        exact ht
    · intro v hv
      rcases List.mem_append.mp hv with hv | hv
      · exact h.complete v hv
      · rw [List.mem_singleton] at hv
        subst hv
        exact hc
    · rw [mem_collectedCalls, mem_collectedCalls]
      simp [or_and_right, exists_or]
  · -- a known identity: if the item is a call, the known item is the same call
    subst he
    refine ⟨h, fun c => ⟨Or.inl, fun hcase => ?_⟩⟩
    rcases hcase with hmem | ⟨htype, hid⟩
    · exact hmem
    · have hii : i = callIdentity c := by
        have h1 := identity_of_call htype hid
        rw [hi] at h1
        injection h1
      rw [hii] at hvi
      have hcall := call_of_identity (h.types v hv) hvi
      exact mem_collectedCalls.mpr ⟨v, hv, hcall⟩

/-! ## 3. One event -/

/-- The type of an item that `pickString` reads is its `type`. -/
theorem itemType_of_pickString {item : ResponsesInputItem} {type : Text}
    (h : pickString item ["type"] = some type) : itemType item = some type := by
  unfold pickString at h
  rw [List.findSome?_cons] at h
  unfold itemType
  cases hp : property item "type" with
  | none => simp [hp, nonEmptyString] at h
  | some value =>
    cases value with
    | str text =>
      simp only [hp, nonEmptyString] at h
      by_cases he : text.isEmpty = true
      · simp [he] at h
      · simpa [he] using h
    | null => simp [hp, nonEmptyString] at h
    | bool b => simp [hp, nonEmptyString] at h
    | num t => simp [hp, nonEmptyString] at h
    | arr l => simp [hp, nonEmptyString] at h
    | obj l => simp [hp, nonEmptyString] at h

theorem pickString_of_itemType {item : ResponsesInputItem} {type : String}
    (hne : type.toList.isEmpty = false) (h : hasType item type = true) :
    pickString item ["type"] = some type.toList := by
  unfold hasType itemType at h
  unfold pickString
  rw [List.findSome?_cons]
  cases hp : property item "type" with
  | none => simp [hp] at h
  | some value =>
    cases value with
    | str text =>
      simp only [hp, beq_iff_eq, Option.some.injEq] at h
      simp [nonEmptyString, h, hne]
    | null => simp [hp] at h
    | bool b => simp [hp] at h
    | num t => simp [hp] at h
    | arr l => simp [hp] at h
    | obj l => simp [hp] at h

theorem hasType_iff {item : ResponsesInputItem} {type : String}
    (hne : type.toList.isEmpty = false) :
    hasType item type = true ↔ pickString item ["type"] = some type.toList := by
  constructor
  · exact pickString_of_itemType hne
  · intro h
    unfold hasType
    rw [itemType_of_pickString h]
    exact beq_self_eq_true _

theorem hasType_unique {item : ResponsesInputItem} {type type' : String}
    (hne : type.toList ≠ type'.toList) (h : hasType item type = true) :
    hasType item type' = false := by
  unfold hasType at h ⊢
  rw [beq_iff_eq] at h
  rw [h]
  simpa using hne

/-- What an event that goes on does to the calls. -/
structure Advances (s s' : StreamState) (event : UnknownRecord)
    (emitted : List ResponsesStreamEvent) : Prop where
  invariant : CallInvariant s'
  sequence : s'.lastSequence = s.lastSequence
  calls : s'.emittedCalls = s.emittedCalls ++ emittedIds emitted
  noFinish : NoFinish emitted
  heard : ∀ c, c ∈ s'.emittedCalls ↔ c ∈ s.emittedCalls ∨ doneCallId event = some c

/-- An event that touches neither the calls nor the collected items. -/
theorem Advances.quiet {s s' : StreamState} {event : UnknownRecord}
    {emitted : List ResponsesStreamEvent} (h : CallInvariant s)
    (h1 : s'.emittedCalls = s.emittedCalls)
    (h2 : s'.streamedContinuationItems = s.streamedContinuationItems)
    (h3 : s'.lastSequence = s.lastSequence) (hids : emittedIds emitted = [])
    (hno : NoFinish emitted) (hdone : doneCallId event = none) :
    Advances s s' event emitted := by
  refine ⟨h.congr h1 h2, h3, ?_, hno, fun c => ?_⟩
  · rw [h1, hids, List.append_nil]
  · rw [h1, hdone]
    simp

theorem noteCompletedWebSearch_calls [UrlParser] (s : StreamState) (item : ResponsesInputItem) :
    (noteCompletedWebSearch s item).emittedCalls = s.emittedCalls ∧
      (noteCompletedWebSearch s item).streamedContinuationItems = s.streamedContinuationItems ∧
      (noteCompletedWebSearch s item).lastSequence = s.lastSequence := by
  unfold noteCompletedWebSearch
  cases webSearchCallId item <;> exact ⟨rfl, rfl, rfl⟩

theorem noteFailedWebSearch_calls (s : StreamState) (callId : Option Text) :
    (noteFailedWebSearch s callId).emittedCalls = s.emittedCalls ∧
      (noteFailedWebSearch s callId).streamedContinuationItems = s.streamedContinuationItems ∧
      (noteFailedWebSearch s callId).lastSequence = s.lastSequence := by
  unfold noteFailedWebSearch
  cases callId <;> exact ⟨rfl, rfl, rfl⟩

/-- **The calls of a completed response**: with those emitted before, they are all its calls. -/
theorem emitTerminalCalls_spec {calls : List Text} (items : List ResponsesInputItem)
    (hn : calls.Nodup) :
    NoFinish (emitTerminalCalls calls items).1 ∧
      (calls ++ emittedIds (emitTerminalCalls calls items).1).Nodup ∧
      ((emitTerminalCalls calls items).2 = none →
        (∀ c, c ∈ calls ++ emittedIds (emitTerminalCalls calls items).1 ↔
          c ∈ calls ∨ c ∈ functionCallIds items) ∧
        ∀ item ∈ items, hasType item "function_call" = true →
          (functionCallParts item).isSome = true) := by
  induction items generalizing calls with
  | nil =>
    refine ⟨(fun _ he => nomatch he), by simpa [emitTerminalCalls, emittedIds] using hn,
      fun _ => ⟨fun c => ?_, fun _ hi => nomatch hi⟩⟩
    simp [emitTerminalCalls, emittedIds, functionCallIds]
  | cons item rest ih =>
    rw [emitTerminalCalls]
    by_cases hf : hasType item "function_call" = true
    · rw [if_pos hf]
      cases hparts : functionCallParts item with
      | none =>
        refine ⟨(fun _ he => nomatch he), by simpa [emittedIds] using hn, fun h => ?_⟩
        nomatch h
      | some parts =>
        obtain ⟨c, name, args⟩ := parts
        simp only
        have hid := functionCallParts_callId hparts
        have hcons : ∀ d, d ∈ functionCallIds (item :: rest) ↔
            d = c ∨ d ∈ functionCallIds rest := by
          intro d
          have hsplit : functionCallIds (item :: rest) =
              functionCallIds [item] ++ functionCallIds rest := functionCallIds_append [item] rest
          have hitem : functionCallIds [item] = [c] := by
            simp [functionCallIds, hf, hid]
          rw [hsplit, hitem, List.mem_append, List.mem_singleton]
        have hcomplete : (∀ i ∈ rest, hasType i "function_call" = true →
              (functionCallParts i).isSome = true) →
            ∀ i ∈ item :: rest, hasType i "function_call" = true →
              (functionCallParts i).isSome = true := by
          intro hall i hi hfi
          rcases List.mem_cons.mp hi with he | hr
          · rw [he, hparts]
            rfl
          · exact hall i hr hfi
        by_cases hin : calls.contains c = true
        · rw [if_pos hin]
          have hc : c ∈ calls := List.contains_iff_mem.mp hin
          obtain ⟨h1, h2, h3⟩ := ih hn
          refine ⟨h1, h2, fun hnone => ?_⟩
          obtain ⟨h4, h5⟩ := h3 hnone
          refine ⟨fun d => ?_, hcomplete h5⟩
          rw [h4 d, hcons d]
          constructor
          · intro hd
            rcases hd with hd | hd
            · exact Or.inl hd
            · exact Or.inr (Or.inr hd)
          · intro hd
            rcases hd with hd | hd | hd
            · exact Or.inl hd
            · exact Or.inl (hd ▸ hc)
            · exact Or.inr hd
        · rw [if_neg hin]
          have hc : c ∉ calls := fun hm => hin (List.contains_iff_mem.mpr hm)
          have hnew : (calls ++ [c]).Nodup := by
            rw [← List.concat_eq_append]
            exact hn.concat hc
          obtain ⟨h1, h2, h3⟩ := ih hnew
          have hids : calls ++ emittedIds
                (.functionCall c name args :: (emitTerminalCalls (calls ++ [c]) rest).1) =
              calls ++ [c] ++ emittedIds (emitTerminalCalls (calls ++ [c]) rest).1 := by
            rw [List.append_assoc]
            rfl
          rw [hids]
          refine ⟨?_, h2, fun hnone => ?_⟩
          · intro e he
            rcases List.mem_cons.mp he with he | he
            · rw [he]
              rfl
            · exact h1 e he
          · obtain ⟨h4, h5⟩ := h3 hnone
            refine ⟨fun d => ?_, hcomplete h5⟩
            rw [h4 d, hcons d, List.mem_append, List.mem_singleton, or_assoc]
    · rw [if_neg hf]
      obtain ⟨h1, h2, h3⟩ := ih hn
      refine ⟨h1, h2, fun hnone => ?_⟩
      obtain ⟨h4, h5⟩ := h3 hnone
      have hcons : functionCallIds (item :: rest) = functionCallIds rest := by
        unfold functionCallIds
        rw [List.filter_cons_of_neg (p := fun item => hasType item "function_call") hf]
      refine ⟨fun d => ?_, fun i hi hfi => ?_⟩
      · rw [h4 d, hcons]
      · rcases List.mem_cons.mp hi with he | hr
        · rw [he] at hfi
          exact absurd hfi hf
        · exact h5 i hr hfi

section Events

variable [UrlParser] [JsonNumber]

/-- **`output_item.done`**: a call is emitted when its item is collected. -/
theorem handleOutputItemDone_next {s s' : StreamState} {event : UnknownRecord}
    {emitted : List ResponsesStreamEvent} (hs : CallInvariant s)
    (htype : pickString event ["type"] = some "response.output_item.done".toList)
    (h : handleOutputItemDone s event = .next s' emitted) : Advances s s' event emitted := by
  unfold handleOutputItemDone at h
  simp only at h
  split at h
  · nomatch h
  next items hitems =>
  by_cases hcall : pickString (asRecord (property event "item")) ["type"] =
      some "function_call".toList
  · -- a call: it is collected, complete and emitted unless its id was emitted before
    have hfc := (hasType_iff (by decide)).mpr hcall
    have hcont : isContinuationItemType
        (pickString (asRecord (property event "item")) ["type"]) = true := by
      rw [hcall]
      decide
    rw [if_pos hcont] at hitems
    rw [hcall, beq_self_eq_true, if_pos rfl] at h
    cases hparts : functionCallParts (asRecord (property event "item")) with
    | none =>
      simp only [hparts] at h
      nomatch h
    | some parts =>
      obtain ⟨c, name, args⟩ := parts
      simp only [hparts] at h
      have hid := functionCallParts_callId hparts
      have hdone : doneCallId event = some c := by
        unfold doneCallId
        simp only [htype, beq_self_eq_true, hfc, Bool.and_self, if_true, hid]
      obtain ⟨hcollected, hcalls⟩ := remember_collected hs.collected hitems
        (by rw [itemType_of_pickString hcall, ← hcall]; exact hcont)
        (fun _ => by rw [hparts]; rfl)
      have hmem : ∀ d, d ∈ collectedCalls items ↔ d ∈ s.emittedCalls ∨ d = c := by
        intro d
        rw [hcalls d, hs.emitted d]
        simp only [hfc, hid, Option.some.injEq, true_and]
        rw [eq_comm]
      by_cases hin : s.emittedCalls.contains c = true
      · rw [if_pos hin] at h
        injection h with h1 h2
        subst h1 h2
        have hc : c ∈ s.emittedCalls := List.contains_iff_mem.mp hin
        refine ⟨⟨hs.distinct, hcollected, fun d => ?_⟩, rfl, (List.append_nil _).symm,
          (fun _ he => nomatch he), fun d => ?_⟩
        · rw [hmem d]
          constructor
          · exact Or.inl
          · intro hd
            rcases hd with hd | hd
            · exact hd
            · rw [hd]
              exact hc
        · rw [hdone, Option.some.injEq]
          constructor
          · exact Or.inl
          · intro hd
            rcases hd with hd | hd
            · exact hd
            · rw [← hd]
              exact hc
      · rw [if_neg hin] at h
        injection h with h1 h2
        subst h1 h2
        have hc : c ∉ s.emittedCalls := fun hm => hin (List.contains_iff_mem.mpr hm)
        have hnodup : (s.emittedCalls ++ [c]).Nodup := by
          rw [← List.concat_eq_append]
          exact hs.distinct.concat hc
        refine ⟨⟨hnodup, hcollected, fun d => ?_⟩, rfl, rfl, ?_, fun d => ?_⟩
        · rw [hmem d, List.mem_append, List.mem_singleton]
        · intro e he
          rw [List.mem_singleton] at he
          subst he
          rfl
        · rw [hdone, Option.some.injEq, List.mem_append, List.mem_singleton, eq_comm (a := c)]
  · -- any other item: it adds no call
    have hfc : ¬hasType (asRecord (property event "item")) "function_call" = true :=
      fun hf => hcall ((hasType_iff (by decide)).mp hf)
    have hdone : doneCallId event = none := by
      unfold doneCallId
      simp [hfc]
    have hcollected : Collected items ∧ ∀ c, c ∈ collectedCalls items ↔
        c ∈ collectedCalls s.streamedContinuationItems := by
      by_cases hcont : isContinuationItemType
          (pickString (asRecord (property event "item")) ["type"]) = true
      · rw [if_pos hcont] at hitems
        have htypes : isContinuationItemType (itemType (asRecord (property event "item"))) =
            true := by
          rcases continuation_type_cases hcont with ht | ht | ht | ht <;>
            · rw [itemType_of_pickString ht, ← ht]
              exact hcont
        obtain ⟨h1, h2⟩ := remember_collected hs.collected hitems htypes
          (fun hf => absurd hf hfc)
        refine ⟨h1, fun c => ?_⟩
        rw [h2 c]
        simp [hfc]
      · rw [if_neg hcont] at hitems
        injection hitems with hitems
        subst hitems
        exact ⟨hs.collected, fun _ => Iff.rfl⟩
    have hinv : CallInvariant { s with streamedContinuationItems := items } :=
      ⟨hs.distinct, hcollected.1, fun c => (hs.emitted c).trans (hcollected.2 c).symm⟩
    have hquiet : ∀ t : StreamState, t.emittedCalls = s.emittedCalls ∧
        t.streamedContinuationItems = items ∧ t.lastSequence = s.lastSequence →
        Advances s t event [] := by
      intro t ht
      refine ⟨hinv.congr ht.1 ht.2.1, ht.2.2, ?_, (fun _ he => nomatch he), fun c => ?_⟩
      · rw [ht.1]
        exact (List.append_nil _).symm
      · rw [ht.1, hdone]
        simp
    have hneg : ¬(pickString (asRecord (property event "item")) ["type"] ==
        some "function_call".toList) = true := by
      rw [beq_iff_eq]
      exact hcall
    rw [if_neg hneg] at h
    split at h
    · injection h with h1 h2
      subst h1 h2
      exact hquiet _ (noteCompletedWebSearch_calls _ _)
    · split at h
      · injection h with h1 h2
        subst h1 h2
        exact hquiet _ (noteFailedWebSearch_calls _ _)
      · injection h with h1 h2
        subst h1 h2
        exact hquiet _ ⟨rfl, rfl, rfl⟩

theorem handleOutputItemDone_failed {s : StreamState} {event : UnknownRecord}
    {emitted : List ResponsesStreamEvent} {error : ProviderResponseError}
    (h : handleOutputItemDone s event = .failed emitted error) : emitted = [] := by
  unfold handleOutputItemDone at h
  simp only at h
  split at h
  · injection h with h
    exact h.symm
  · split at h
    · split at h
      · injection h with h
        exact h.symm
      · split at h <;> nomatch h
    · split at h
      · nomatch h
      · split at h <;> nomatch h

theorem handleOutputItemDone_not_finished {s : StreamState} {event : UnknownRecord}
    {emitted : List ResponsesStreamEvent} {finish : ResponsesFinish} :
    handleOutputItemDone s event ≠ .finished emitted finish := by
  intro h
  unfold handleOutputItemDone at h
  simp only at h
  split at h
  · nomatch h
  · split at h
    · split at h
      · nomatch h
      · split at h <;> nomatch h
    · split at h
      · nomatch h
      · split at h <;> nomatch h

theorem finishResponse_sources (context : StreamContext) (s : StreamState) (event : UnknownRecord)
    (status : TerminalStatus) (responseId : Text) (items : List ResponsesInputItem) :
    emittedIds (finishResponse context s event status responseId items).1 = [] ∧
      NoFinish (finishResponse context s event status responseId items).1 := by
  unfold finishResponse
  simp only
  split
  · refine ⟨rfl, fun e he => ?_⟩
    rw [List.mem_singleton] at he
    rw [he]
    rfl
  · exact ⟨rfl, fun _ he => nomatch he⟩

/-- What a terminal event hands over. -/
structure Finishes (s : StreamState) (event : UnknownRecord) (eventType : Text)
    (emitted : List ResponsesStreamEvent) (finish : ResponsesFinish) : Prop where
  status : terminalResponseStatus eventType = some finish.status
  noFinish : NoFinish emitted
  distinct : (s.emittedCalls ++ emittedIds emitted).Nodup
  merged : mergeResponseOutputItems (terminalItems event) s.streamedContinuationItems =
    .ok finish.continuationItems
  calls : finish.status = .completed → ∀ c, c ∈ s.emittedCalls ++ emittedIds emitted ↔
    c ∈ s.emittedCalls ∨ c ∈ functionCallIds finish.continuationItems
  complete : finish.status = .completed → ∀ item ∈ finish.continuationItems,
    hasType item "function_call" = true → (functionCallParts item).isSome = true

/-- A terminal event that does not finish the stream has emitted no call twice. -/
theorem handleTerminal_cases (context : StreamContext) {s : StreamState} (event : UnknownRecord)
    {eventType : Text} {status : TerminalStatus} (hs : CallInvariant s)
    (ht : terminalResponseStatus eventType = some status) :
    match handleTerminal context s event eventType status with
    | .next _ _ => False
    | .failed emitted _ => NoFinish emitted ∧ (s.emittedCalls ++ emittedIds emitted).Nodup
    | .finished emitted finish => Finishes s event eventType emitted finish := by
  have hnil : NoFinish [] ∧ (s.emittedCalls ++ emittedIds []).Nodup := by
    refine ⟨(fun _ he => nomatch he), ?_⟩
    simpa [emittedIds] using hs.distinct
  unfold handleTerminal
  cases s.responseId with
  | none => exact hnil
  | some responseId =>
    simp only
    cases hm : mergeResponseOutputItems (responseOutputItems (asRecord (property event "response")))
        s.streamedContinuationItems with
    | error error => exact hnil
    | ok items =>
      simp only
      obtain ⟨hnoSources, hnfSources⟩ := And.intro
        (finishResponse_sources context s event status responseId items).1
        (finishResponse_sources context s event status responseId items).2
      by_cases hc : status = .completed
      · rw [if_pos hc]
        obtain ⟨h1, h2, h3⟩ := emitTerminalCalls_spec items hs.distinct
        cases he : (emitTerminalCalls s.emittedCalls items).2 with
        | some error => exact ⟨h1, h2⟩
        | none =>
          obtain ⟨h4, h5⟩ := h3 he
          have hids : emittedIds ((emitTerminalCalls s.emittedCalls items).1 ++
                (finishResponse context s event status responseId items).1) =
              emittedIds (emitTerminalCalls s.emittedCalls items).1 := by
            rw [emittedIds_append, hnoSources, List.append_nil]
          refine ⟨ht, noFinish_append h1 hnfSources, ?_, hm, fun _ c => ?_, fun _ => h5⟩
          · rw [hids]
            exact h2
          · rw [hids]
            exact h4 c
      · rw [if_neg hc]
        refine ⟨ht, noFinish_append (fun _ he => nomatch he) hnfSources, ?_, hm,
          fun h => absurd h hc, fun h => absurd h hc⟩
        rw [List.nil_append, hnoSources]
        exact hnil.2

/-- **One admitted event**: it goes on under the invariant, fails, or finishes. -/
theorem handleEvent_cases (context : StreamContext) {s : StreamState} {event : UnknownRecord}
    {eventType : Text} (hs : CallInvariant s) (htype : pickString event ["type"] = some eventType) :
    match handleEvent context s event eventType with
    | .next s' emitted => Advances s s' event emitted ∧ terminalResponseStatus eventType = none
    | .failed emitted _ => NoFinish emitted ∧ (s.emittedCalls ++ emittedIds emitted).Nodup
    | .finished emitted finish => Finishes s event eventType emitted finish := by
  have hnil : NoFinish [] ∧ (s.emittedCalls ++ emittedIds []).Nodup := by
    refine ⟨(fun _ he => nomatch he), ?_⟩
    simpa [emittedIds] using hs.distinct
  have hdone : eventType ≠ "response.output_item.done".toList → doneCallId event = none := by
    intro hne
    unfold doneCallId
    simp only
    rw [htype, if_neg]
    intro h
    rw [Bool.and_eq_true, beq_iff_eq, Option.some.injEq] at h
    exact hne h.1
  have hone : ∀ e : ResponsesStreamEvent, e.isFinish = false → NoFinish [e] := by
    intro e he e' he'
    rw [List.mem_singleton] at he'
    rw [he']
    exact he
  unfold handleEvent
  by_cases h1 : (eventType == "response.created".toList) = true
  · rw [if_pos h1]
    rw [beq_iff_eq] at h1
    cases s.responseId with
    | none => exact hnil
    | some responseId =>
      refine ⟨Advances.quiet hs rfl rfl rfl rfl (hone _ rfl) (hdone ?_), ?_⟩
      · rw [h1]
        decide
      · rw [h1]
        decide
  rw [if_neg h1]
  by_cases h2 : (eventType == "response.output_text.delta".toList) = true
  · rw [if_pos h2]
    rw [beq_iff_eq] at h2
    have hd := hdone (by rw [h2]; decide)
    have ht : terminalResponseStatus eventType = none := by
      rw [h2]
      decide
    cases pickString event ["delta"] with
    | none => exact ⟨Advances.quiet hs rfl rfl rfl rfl (fun _ he => nomatch he) hd, ht⟩
    | some delta => exact ⟨Advances.quiet hs rfl rfl rfl rfl (hone _ rfl) hd, ht⟩
  rw [if_neg h2]
  by_cases h3 : (eventType == "response.output_item.done".toList) = true
  · rw [if_pos h3]
    rw [beq_iff_eq] at h3
    cases hh : handleOutputItemDone s event with
    | next s' emitted =>
      refine ⟨handleOutputItemDone_next hs (h3 ▸ htype) hh, ?_⟩
      rw [h3]
      decide
    | failed emitted error =>
      have he := handleOutputItemDone_failed hh
      subst he
      exact hnil
    | finished emitted finish => exact absurd hh handleOutputItemDone_not_finished
  rw [if_neg h3]
  have hd := hdone fun he => h3 (beq_iff_eq.mpr he)
  by_cases h4 : isWebSearchFailureEvent eventType = true
  · rw [if_pos h4]
    have hq := noteFailedWebSearch_calls s (webSearchEventCallId event)
    refine ⟨Advances.quiet hs hq.1 hq.2.1 hq.2.2 rfl (fun _ he => nomatch he) hd, ?_⟩
    unfold isWebSearchFailureEvent at h4
    simp only [List.any_cons, List.any_nil, Bool.or_false, Bool.or_eq_true, beq_iff_eq] at h4
    rcases h4 with h4 | h4 | h4 <;>
      · rw [h4]
        decide
  rw [if_neg h4]
  cases h5 : webSearchStatus eventType with
  | some status =>
    have ht : terminalResponseStatus eventType = none := by
      unfold webSearchStatus at h5
      split at h5
      · next he =>
          rw [beq_iff_eq.mp he]
          decide
      · split at h5
        · next he =>
            rw [beq_iff_eq.mp he]
            decide
        · split at h5
          · next he =>
              rw [beq_iff_eq.mp he]
              decide
          · nomatch h5
    refine ⟨Advances.quiet hs ?_ ?_ ?_ rfl (hone _ rfl) hd, ht⟩ <;>
      · split
        · split <;> rfl
        · rfl
  | none =>
    cases h6 : terminalResponseStatus eventType with
    | none => exact ⟨Advances.quiet hs rfl rfl rfl rfl (fun _ he => nomatch he) hd, rfl⟩
    | some status =>
      have hc := handleTerminal_cases context event hs h6
      simp only
      cases hh : handleTerminal context s event eventType status with
      | next s' emitted =>
        rw [hh] at hc
        exact hc.elim
      | failed emitted error =>
        rw [hh] at hc
        exact hc
      | finished emitted finish =>
        rw [hh] at hc
        exact hc

end Events

/-! ## 4. The whole stream -/

theorem callInvariant_hear (context : StreamContext) {s : StreamState} (h : CallInvariant s) (event : UnknownRecord)
    (last : Num) : CallInvariant (s.hear context event last) := h.congr rfl rfl

section Run

variable [UrlParser] [JsonNumber] (context : StreamContext)

/-- What a run from a state promises: it fails without a finish, or it finishes with what its
    terminal event hands over, on top of the calls that were heard. -/
structure RunFacts (s : StreamState) (events : List Json) (run : StreamRun) : Prop where
  distinct : (s.emittedCalls ++ emittedIds run.events).Nodup
  outcome : (run.error.isSome = true ∧ NoFinish run.events) ∨
    ∃ before finish terminal items, run.events = before ++ [.finish finish] ∧ NoFinish before ∧
      run.error = none ∧ (heard s.lastSequence events).terminal = some terminal ∧
      Collected items ∧
      (∀ c, c ∈ collectedCalls items ↔ c ∈ s.emittedCalls ∨
        c ∈ (heard s.lastSequence events).before.filterMap doneCallId) ∧
      mergeResponseOutputItems (terminalItems terminal) items = .ok finish.continuationItems ∧
      (finish.status = .completed → ∀ c, c ∈ s.emittedCalls ++ emittedIds run.events ↔
        c ∈ collectedCalls items ∨ c ∈ functionCallIds finish.continuationItems) ∧
      (finish.status = .completed → ∀ item ∈ finish.continuationItems,
        hasType item "function_call" = true → (functionCallParts item).isSome = true)

/-- **All events**, by induction: each one that goes on hands the invariant to the rest. -/
theorem streamFrom_spec {s : StreamState} (hs : CallInvariant s) (events : List Json)
    (stop : StreamEnd) : RunFacts s events (streamFrom context s events stop) := by
  induction events generalizing s with
  | nil =>
    rw [streamFrom.eq_def]
    cases stop with
    | ended => exact ⟨by simpa [emittedIds] using hs.distinct,
        Or.inl ⟨rfl, fun _ he => nomatch he⟩⟩
    | failed => exact ⟨by simpa [emittedIds] using hs.distinct,
        Or.inl ⟨rfl, fun _ he => nomatch he⟩⟩
  | cons rawEvent rest ih =>
    rw [streamFrom.eq_def]
    simp only
    cases hadmit : admitEvent s.lastSequence rawEvent with
    | skip =>
      have hheard : heard s.lastSequence (rawEvent :: rest) = heard s.lastSequence rest := by
        rw [heard, hadmit]
      have h := ih hs
      refine ⟨h.distinct, ?_⟩
      rw [hheard]
      exact h.outcome
    | backwards sequence =>
      exact ⟨by simpa [emittedIds] using hs.distinct, Or.inl ⟨rfl, fun _ he => nomatch he⟩⟩
    | semantic event eventType last =>
      have htype := (admitEvent_semantic hadmit).2
      have hcases := handleEvent_cases context (callInvariant_hear context hs event last) htype
      simp only
      cases hh : handleEvent context (s.hear context event last) event eventType with
      | failed emitted error =>
        rw [hh] at hcases
        exact ⟨hcases.2, Or.inl ⟨rfl, hcases.1⟩⟩
      | finished emitted finish =>
        rw [hh] at hcases
        have hheard : heard s.lastSequence (rawEvent :: rest) = ⟨[], some event⟩ := by
          rw [heard, hadmit]
          simp only [hcases.status, Option.isSome_some, if_true]
        have hids : emittedIds (emitted ++ [.finish finish]) = emittedIds emitted := by
          rw [emittedIds_append]
          exact List.append_nil _
        refine ⟨?_, Or.inr ⟨emitted, finish, event, s.streamedContinuationItems, rfl,
          hcases.noFinish, rfl, ?_, hs.collected, ?_, hcases.merged, ?_, hcases.complete⟩⟩
        · rw [hids]
          exact hcases.distinct
        · rw [hheard]
        · intro c
          rw [hheard, ← hs.emitted c]
          simp
        · intro hc c
          rw [hids, ← hs.emitted c]
          exact hcases.calls hc c
      | next s' emitted =>
        rw [hh] at hcases
        obtain ⟨hadv, hnone⟩ := hcases
        have hlast : s'.lastSequence = last := hadv.sequence
        have hheard : heard s.lastSequence (rawEvent :: rest) =
            ⟨event :: (heard s'.lastSequence rest).before,
              (heard s'.lastSequence rest).terminal⟩ := by
          rw [heard, hadmit, hlast]
          simp only [hnone, Option.isSome_none, Bool.false_eq_true, if_false]
        have hcalls : s'.emittedCalls = s.emittedCalls ++ emittedIds emitted := hadv.calls
        have h := ih hadv.invariant
        have hids : s.emittedCalls ++ emittedIds
              (emitted ++ (streamFrom context s' rest stop).events) =
            s'.emittedCalls ++ emittedIds (streamFrom context s' rest stop).events := by
          rw [emittedIds_append, ← List.append_assoc, hcalls]
        refine ⟨by rw [hids]; exact h.distinct, ?_⟩
        rcases h.outcome with ⟨herr, hno⟩ | hfin
        · exact Or.inl ⟨herr, noFinish_append hadv.noFinish hno⟩
        · obtain ⟨before, finish, terminal, items, hev, hno, herr, hterm, hcol, hmem, hmerge,
            hset, hcomplete⟩ := hfin
          refine Or.inr ⟨emitted ++ before, finish, terminal, items, ?_,
            noFinish_append hadv.noFinish hno, herr, ?_, hcol, ?_, hmerge, ?_, hcomplete⟩
          · show emitted ++ (streamFrom context s' rest stop).events = _
            rw [hev, List.append_assoc]
          · rw [hheard]
            exact hterm
          · intro c
            have hc := hadv.heard c
            have hc' : c ∈ s'.emittedCalls ↔ c ∈ s.emittedCalls ∨ doneCallId event = some c :=
              hc
            rw [hmem c, hc', hheard, or_assoc]
            simp only [List.mem_filterMap, List.mem_cons, or_and_right, exists_or,
              exists_eq_left]
          · intro hc c
            rw [hids]
            exact hset hc c

end Run

/-! ## 5. Continuing the input -/

/-- One output for each call, in any order. -/
structure OutputsFor (calls : List Text) (outputs : List ResponsesInputItem) : Prop where
  shape : ∀ item ∈ outputs, hasType item "function_call_output" = true ∧
    ∃ text, property item "output" = some (.str text)
  calls : (outputs.map fun item => pickString item ["call_id"]).Perm (calls.map some)

theorem outputsFor_roles {calls : List Text} {outputs : List ResponsesInputItem}
    (h : OutputsFor calls outputs) :
    ∃ ids : List Text, ids.Perm calls ∧
      outputs.map pairingRole = ids.map PairingRole.output := by
  have hall : ∀ item ∈ outputs, ∃ c, pickString item ["call_id"] = some c := by
    intro item hitem
    have hmem := h.calls.mem_iff.mp (List.mem_map.mpr ⟨item, hitem, rfl⟩)
    obtain ⟨c, -, hc⟩ := List.mem_map.mp hmem
    exact ⟨c, hc.symm⟩
  have hids : ∀ l : List ResponsesInputItem, (∀ item ∈ l, item ∈ outputs) →
      ∃ ids : List Text, (l.map fun item => pickString item ["call_id"]) = ids.map some ∧
        l.map pairingRole = ids.map PairingRole.output := by
    intro l
    induction l with
    | nil => exact fun _ => ⟨[], rfl, rfl⟩
    | cons item rest ih =>
      intro hsub
      obtain ⟨ids, h1, h2⟩ := ih fun i hi => hsub i (List.mem_cons_of_mem _ hi)
      obtain ⟨c, hc⟩ := hall item (hsub item List.mem_cons_self)
      obtain ⟨htype, text, htext⟩ := h.shape item (hsub item List.mem_cons_self)
      have hno : hasType item "function_call" = false := hasType_unique (by decide) htype
      have hrole : pairingRole item = .output c := by
        unfold pairingRole
        simp only [hno, htype, hc, htext, Bool.false_eq_true, if_false, if_true]
      refine ⟨c :: ids, ?_, ?_⟩
      · rw [List.map_cons, List.map_cons, hc, h1]
      · rw [List.map_cons, List.map_cons, hrole, h2]
  obtain ⟨ids, h1, h2⟩ := hids outputs fun _ hi => hi
  refine ⟨ids, ?_, h2⟩
  have hp := h.calls
  rw [h1] at hp
  exact (List.map_perm_map_iff (Option.some_injective _)).mp hp

section Continuation

variable {terminal merged : List ResponsesInputItem} {items : List IndexedContinuationItem}

/-- A merged call comes from the terminal response or was collected. -/
theorem merged_calls (hcol : Collected items)
    (hmerge : mergeResponseOutputItems terminal items = .ok merged) {c : Text}
    (h : c ∈ functionCallIds merged) :
    c ∈ functionCallIds terminal ∨ c ∈ collectedCalls items := by
  obtain ⟨item, hmem, htype, hid⟩ := mem_functionCallIds.mp h
  rcases ((merge_spec hcol.identities hmerge).1 item).mp hmem with ht | ⟨v, hv, he, -⟩
  · exact Or.inl (mem_functionCallIds.mpr ⟨item, ht, htype, hid⟩)
  · rw [← he] at htype hid
    exact Or.inr (mem_collectedCalls.mpr ⟨v, hv, htype, hid⟩)

theorem terminal_calls_merged (hcol : Collected items)
    (hmerge : mergeResponseOutputItems terminal items = .ok merged) {c : Text}
    (h : c ∈ functionCallIds terminal) : c ∈ functionCallIds merged := by
  obtain ⟨item, hmem, htype, hid⟩ := mem_functionCallIds.mp h
  exact mem_functionCallIds.mpr
    ⟨item, ((merge_spec hcol.identities hmerge).1 item).mpr (Or.inl hmem), htype, hid⟩

/-- **When merging keeps every collected call**: no item of the terminal response takes a
    call's identity without being that call. -/
theorem collected_calls_merged_iff (hcol : Collected items)
    (hmerge : mergeResponseOutputItems terminal items = .ok merged) :
    (∀ c ∈ collectedCalls items, c ∈ functionCallIds merged) ↔
      ∀ c ∈ collectedCalls items,
        (∃ item ∈ terminal, continuationItemIdentity item = some (callIdentity c)) →
          c ∈ functionCallIds terminal := by
  have hspec := (merge_spec hcol.identities hmerge).1
  constructor
  · intro h c hc hcollision
    obtain ⟨t, ht, he⟩ := hcollision
    obtain ⟨item, hmem, htype, hid⟩ := mem_functionCallIds.mp (h c hc)
    rcases (hspec item).mp hmem with hterm | ⟨v, hv, hve, hna⟩
    · exact mem_functionCallIds.mpr ⟨item, hterm, htype, hid⟩
    · rw [← hve] at htype hid
      exact absurd he (hna _ (identity_of_call htype hid) t ht)
  · intro h c hc
    by_cases hcollision : ∃ item ∈ terminal, continuationItemIdentity item = some (callIdentity c)
    · exact terminal_calls_merged hcol hmerge (h c hc hcollision)
    · obtain ⟨v, hv, htype, hid⟩ := mem_collectedCalls.mp hc
      refine mem_functionCallIds.mpr ⟨v.item, (hspec v.item).mpr (Or.inr ⟨v, hv, rfl, ?_⟩),
        htype, hid⟩
      intro i hi t ht he
      rw [identity_of_call htype hid] at hi
      injection hi with hi
      exact hcollision ⟨t, ht, hi ▸ he⟩

/-- A collected item is no output of a call. -/
theorem collected_not_output (hcol : Collected items) {v : IndexedContinuationItem}
    (hv : v ∈ items) : hasType v.item "function_call_output" = false := by
  unfold hasType
  rcases continuation_type_cases (hcol.types v hv) with h | h | h | h <;>
    · rw [h]
      decide

theorem merged_outputs_iff (hcol : Collected items)
    (hmerge : mergeResponseOutputItems terminal items = .ok merged) :
    (∀ item ∈ merged, hasType item "function_call_output" = false) ↔
      ∀ item ∈ terminal, hasType item "function_call_output" = false := by
  have hspec := (merge_spec hcol.identities hmerge).1
  constructor
  · intro h item hitem
    exact h item ((hspec item).mpr (Or.inl hitem))
  · intro h item hitem
    rcases (hspec item).mp hitem with hterm | ⟨v, hv, he, -⟩
    · exact h item hterm
    · rw [← he]
      exact collected_not_output hcol hv

/-- The calls of an accepted input are complete. -/
theorem paired_complete {input : List ResponsesInputItem} (h : Paired (input.map pairingRole)) :
    ∀ item ∈ input, hasType item "function_call" = true →
      (functionCallParts item).isSome = true := by
  intro item hitem htype
  by_contra hnone
  rw [Option.not_isSome_iff_eq_none] at hnone
  have hrole : pairingRole item = .invalid := by
    unfold pairingRole
    simp only [htype, if_true, hnone]
  exact h.valid (hrole ▸ List.mem_map.mpr ⟨item, hitem, rfl⟩)

/-- **The continued input is accepted** when and only when the items bring no output and no
    call of the input. -/
theorem continued_accepted_iff {input outputs : List ResponsesInputItem} {calls : List Text}
    (hinput : assertFunctionCallPairing input = .ok ()) (hn : (functionCallIds merged).Nodup)
    (hcomplete : ∀ item ∈ merged, hasType item "function_call" = true →
      (functionCallParts item).isSome = true)
    (hcalls : calls.Nodup) (hsame : ∀ c, c ∈ calls ↔ c ∈ functionCallIds merged)
    (hout : OutputsFor calls outputs) :
    assertFunctionCallPairing (continuedInput input merged outputs) = .ok () ↔
      (∀ item ∈ merged, hasType item "function_call_output" = false) ∧
        ∀ c ∈ functionCallIds merged, c ∉ functionCallIds input := by
  have hin := (pairing_iff input).mp hinput
  obtain ⟨ids, hperm, hroles⟩ := outputsFor_roles hout
  have h1 := calledIds_roles hcomplete
  have h2 := calledIds_roles (paired_complete hin)
  have happend := @paired_append_iff _ (merged.map pairingRole) ids hin
    (by rw [h1]; exact hn) (hperm.nodup_iff.mpr hcalls)
    (fun c => by rw [h1, hperm.mem_iff]; exact hsame c)
  rw [pairing_iff]
  unfold continuedInput
  rw [List.map_append, List.map_append, hroles, happend, h1, h2]
  have hans : (∀ role ∈ merged.map pairingRole, role.answers = false) ↔
      ∀ item ∈ merged, hasType item "function_call_output" = false := by
    constructor
    · intro h item hitem
      rw [← pairingRole_answers (hcomplete item hitem)]
      exact h _ (List.mem_map.mpr ⟨item, hitem, rfl⟩)
    · intro h role hrole
      obtain ⟨item, hitem, he⟩ := List.mem_map.mp hrole
      rw [← he, pairingRole_answers (hcomplete item hitem)]
      exact h item hitem
  rw [hans]

end Continuation

section Protocol

variable [UrlParser] [JsonNumber]

/-- **The protocol of the Responses stream.** -/
theorem stream_protocol (context : StreamContext) (events : List Json) (stop : StreamEnd) :
    let run := stream context events stop
    -- one finish at most, and nothing behind it
    (∀ before e after, run.events = before ++ e :: after → e.isFinish = true →
        NoFinish before ∧ after = [] ∧ run.error = none) ∧
      (run.error = none → ∃ e ∈ run.events, e.isFinish = true) ∧
      -- without a terminal event the stream raises an error
      ((∀ rawEvent ∈ events, isTerminal rawEvent = false) →
        run.error.isSome = true ∧ NoFinish run.events) ∧
      -- a call is emitted once
      (emittedIds run.events).Nodup ∧
      -- a completed response: when its items and the outputs continue the input
      ∀ finish, .finish finish ∈ run.events → finish.status = .completed →
        ∀ input outputs, assertFunctionCallPairing input = .ok () →
          OutputsFor (emittedIds run.events) outputs →
          (((∀ c, c ∈ emittedIds run.events ↔ c ∈ functionCallIds finish.continuationItems) ∧
              assertFunctionCallPairing
                (continuedInput input finish.continuationItems outputs) = .ok ()) ↔
            Continues events input) := by
  intro run
  have hfacts : RunFacts .initial events run :=
    streamFrom_spec context callInvariant_initial events stop
  have hempty : StreamState.initial.emittedCalls = [] := rfl
  have hdistinct : (emittedIds run.events).Nodup := by
    have h := hfacts.distinct
    rw [hempty, List.nil_append] at h
    exact h
  rcases hfacts.outcome with ⟨herr, hno⟩ |
      ⟨pre, fin, terminal, items, hev, hpre, herr, hterm, hcol, hmem, hmerge, hset, hcomplete⟩
  · -- the stream failed: there is no finish
    refine ⟨?_, ?_, fun _ => ⟨herr, hno⟩, hdistinct, ?_⟩
    · intro before e after he hfin
      have := hno e (he ▸ List.mem_append_right _ List.mem_cons_self)
      rw [hfin] at this
      nomatch this
    · intro hnone
      rw [hnone] at herr
      nomatch herr
    · intro finish hfin
      have := hno _ hfin
      nomatch this
  · refine ⟨?_, ?_, ?_, hdistinct, ?_⟩
    · intro before e after he hfin
      rw [hev] at he
      -- the finish is the last event, and the others are none
      rcases List.eq_nil_or_concat after with ha | ⟨init, last, ha⟩
      · subst ha
        have hlen := List.append_inj_left' he rfl
        rw [← hlen]
        exact ⟨hpre, rfl, herr⟩
      · exfalso
        rw [ha, List.concat_eq_append, ← List.cons_append, ← List.append_assoc] at he
        have hlen := List.append_inj_left' he rfl
        have hmem : e ∈ pre := by
          rw [hlen]
          exact List.mem_append_right _ List.mem_cons_self
        have := hpre e hmem
        rw [hfin] at this
        nomatch this
    · intro _
      exact ⟨_, hev ▸ List.mem_append_right _ (List.mem_singleton.mpr rfl), rfl⟩
    · intro hnone
      rw [heard_terminal_none hnone] at hterm
      nomatch hterm
    · intro finish hfin hcompleted input outputs hinput hout
      have hfinish : finish = fin := by
        rw [hev] at hfin
        rcases List.mem_append.mp hfin with hp | hl
        · have := hpre _ hp
          nomatch this
        · rw [List.mem_singleton] at hl
          injection hl
      subst hfinish
      have hcalls := hset hcompleted
      rw [hempty] at hcalls hmem
      simp only [List.nil_append, List.not_mem_nil, false_or] at hcalls hmem
      have hspec := merge_spec hcol.identities hmerge
      -- the emitted calls are the merged ones when and only when every collected call is merged
      have hsame : (∀ c, c ∈ emittedIds run.events ↔
            c ∈ functionCallIds finish.continuationItems) ↔
          ∀ c ∈ collectedCalls items, c ∈ functionCallIds finish.continuationItems := by
        constructor
        · intro h c hc
          exact (h c).mp ((hcalls c).mpr (Or.inl hc))
        · intro h c
          rw [hcalls c]
          constructor
          · intro hc
            rcases hc with hc | hc
            · exact h c hc
            · exact hc
          · exact Or.inr
      have hcollision := collected_calls_merged_iff hcol hmerge
      unfold Continues
      simp only [hterm, Option.map_some, Option.getD_some]
      constructor
      · intro h
        obtain ⟨heq, haccept⟩ := h
        have hall := hsame.mp heq
        obtain ⟨hnoOut, hnew⟩ := (continued_accepted_iff hinput hspec.2 (hcomplete hcompleted)
          hdistinct heq hout).mp haccept
        refine ⟨(merged_outputs_iff hcol hmerge).mp hnoOut, ?_, ?_⟩
        · intro c hc
          exact hcollision.mp hall c ((hmem c).mpr hc)
        · intro c hc
          rcases hc with hc | hc
          · exact hnew c (hall c ((hmem c).mpr hc))
          · exact hnew c (terminal_calls_merged hcol hmerge hc)
      · intro h
        obtain ⟨hnoOut, hcol2, hnew⟩ := h
        have hall := hcollision.mpr fun c hc => hcol2 c ((hmem c).mp hc)
        have heq := hsame.mpr hall
        refine ⟨heq, (continued_accepted_iff hinput hspec.2 (hcomplete hcompleted) hdistinct heq
          hout).mpr ⟨(merged_outputs_iff hcol hmerge).mpr hnoOut, ?_⟩⟩
        intro c hc
        rcases merged_calls hcol hmerge hc with hc | hc
        · exact hnew c (Or.inr hc)
        · exact hnew c (Or.inl ((hmem c).mp hc))

end Protocol

/-! ## 6. A call id used again -/

/-- No text is a URL. -/
@[reducible] def noUrlParser : UrlParser := ⟨fun _ => none⟩

/-- No number is read. -/
@[reducible] def noNumbers : JsonNumber := ⟨fun _ => none⟩

/-- A call `c1` of the calculator, and its output. -/
def callItem : ResponsesInputItem :=
  [("type".toList, Json.text "function_call"), ("call_id".toList, Json.text "c1"),
    ("name".toList, Json.text "f"), ("arguments".toList, Json.text "0")]

def outputItem : ResponsesInputItem :=
  [("type".toList, Json.text "function_call_output"), ("call_id".toList, Json.text "c1"),
    ("output".toList, Json.text "0")]

/-- The provider completes the call `c1` and the response. -/
def repeatedCall : List Json :=
  [Json.record [("type", Json.text "response.output_item.done"), ("item", .obj callItem)],
    Json.record [("type", Json.text "response.completed"),
      ("response", Json.record [("id", Json.text "r1"), ("output", .arr [])])]]

/-- Whether the check accepts an input. -/
def accepts (input : List ResponsesInputItem) : Bool :=
  match assertFunctionCallPairing input with
  | .ok _ => true
  | .error _ => false

/-- The finish among the events. -/
def finishOf (events : List ResponsesStreamEvent) : Option ResponsesFinish :=
  events.findSome? fun
    | .finish finish => some finish
    | _ => none

theorem mem_of_finishOf {events : List ResponsesStreamEvent} {finish : ResponsesFinish}
    (h : finishOf events = some finish) : .finish finish ∈ events := by
  obtain ⟨event, hevent, hfound⟩ := List.exists_of_findSome?_eq_some h
  cases event with
  | finish found => rwa [← Option.some.inj hfound]
  | _ => cases hfound

/-- **A repeated call id**: the input holds `c1` with its output; the stream emits `c1` once more
    and completes; the continued input is refused. -/
theorem repeated_call_refused :
    let _ : UrlParser := noUrlParser
    let _ : JsonNumber := noNumbers
    let run := stream ⟨none, none, 0⟩ repeatedCall .ended
    emittedIds run.events = ["c1".toList] ∧
      (∃ finish, .finish finish ∈ run.events ∧ finish.status = .completed ∧
        assertFunctionCallPairing [callItem, outputItem] = .ok () ∧
        OutputsFor (emittedIds run.events) [outputItem] ∧
        ¬assertFunctionCallPairing
          (continuedInput [callItem, outputItem] finish.continuationItems [outputItem]) =
            .ok ()) := by
  intro _ _ run
  have hids : emittedIds run.events = ["c1".toList] := by decide +kernel
  refine ⟨hids, ?_⟩
  have hrun : ((finishOf run.events).any fun finish => decide (finish.status = .completed) &&
      !accepts (continuedInput [callItem, outputItem] finish.continuationItems [outputItem])) =
        true := by decide +kernel
  obtain ⟨finish, hfinish, hfound⟩ := (Option.any_eq_true _ _).mp hrun
  rw [Bool.and_eq_true, decide_eq_true_eq, Bool.not_eq_true'] at hfound
  refine ⟨finish, mem_of_finishOf hfinish, hfound.1, by decide +kernel, ⟨?_, ?_⟩, ?_⟩
  · intro item hitem
    rw [List.mem_singleton] at hitem
    subst hitem
    exact ⟨by decide +kernel, "0".toList, rfl⟩
  · rw [hids]
    exact List.Perm.of_eq (by decide +kernel)
  · intro hok
    have hrefused := hfound.2
    unfold accepts at hrefused
    rw [hok] at hrefused
    exact absurd hrefused (by decide)

end OpenVac.Providers
