/-
  File:      OpenVac/Providers/ResponsesStream.lean
  Subject:   The Responses client's event stream, from the opened response on:
             server/providers/deepseek-responses.ts (`stream` and what it calls).

  * `admitEvent` -- events without a type and repeated sequence numbers are skipped, smaller
    ones end the stream.
  * `handleEvent` -- one admitted event: what is emitted, and whether the stream goes on, has
    failed or is finished.
  * `streamFrom` -- all events; the provider's stream itself may end or fail at any place.
-/
import OpenVac.Lib.JsUrl
import OpenVac.Providers.ContinuationItems

namespace OpenVac.Providers

open JsString JsUrl

/-! ## 1. Event types -/

inductive TerminalStatus where
  | completed
  | incomplete
  | failed
  deriving DecidableEq, Repr

def terminalResponseStatus (eventType : Text) : Option TerminalStatus :=
  if eventType == "response.completed".toList then some .completed
  else if eventType == "response.incomplete".toList then some .incomplete
  else if eventType == "response.failed".toList then some .failed
  else none

inductive WebSearchStatus where
  | in_progress
  | searching
  | completed
  deriving DecidableEq, Repr

def webSearchStatus (eventType : Text) : Option WebSearchStatus :=
  if eventType == "response.web_search_call.in_progress".toList then some .in_progress
  else if eventType == "response.web_search_call.searching".toList then some .searching
  else if eventType == "response.web_search_call.completed".toList then some .completed
  else none

def isWebSearchFailureEvent (eventType : Text) : Bool :=
  ["response.web_search_call.failed", "response.web_search_call.incomplete",
    "response.web_search_call.cancelled"].any fun type => eventType == type.toList

/-! ## 2. What the client emits -/

structure WebSource where
  url : Text
  title : Text
  deriving DecidableEq, Repr

structure ResponsesUsage where
  inputTokens : Option Num
  cachedInputTokens : Option Num
  outputTokens : Option Num
  reasoningTokens : Option Num
  totalTokens : Option Num

structure ResponsesFailure where
  code : Option Text
  message : Text

structure ResponsesFinish where
  status : TerminalStatus
  responseId : Text
  outputText : Text
  continuationItems : List ResponsesInputItem
  usage : Option ResponsesUsage
  /-- The reason, for an incomplete response. -/
  incomplete : Option (Option Text)
  error : Option ResponsesFailure
  providerRequestId : Option Text
  firstEventLatencyMs : Option Nat
  completedWebSearchCalls : Nat

inductive ResponsesStreamEvent where
  | responseCreated (responseId : Text)
  | textDelta (text : Text)
  | functionCall (callId name args : Text)
  | webSearchStatus (status : WebSearchStatus) (callId : Option Text)
  | webSearchSources (sources : List WebSource)
  | finish (finish : ResponsesFinish)

/-! ## 3. Web searches -/

/-- `set.add(value)`, in insertion order. -/
def addToSet (set : List Text) (value : Text) : List Text :=
  if set.contains value then set else set ++ [value]

def webSearchEventCallId (event : UnknownRecord) : Option Text :=
  match webSearchCallId event with
  | some callId => some callId
  | none => webSearchCallId (asRecord (property event "item"))

def saturatedWebSearchCount (value : Nat) : Nat := min 9 value

/-- `item.type === "web_search_call"` with the status of a call that did not complete. -/
def isNonCompletedWebSearchCall (item : ResponsesInputItem) : Bool :=
  hasType item "web_search_call" &&
    match pickString item ["status"] with
    | some status => status != "completed".toList
    | none => false

def isCompletedWebSearchCall (item : ResponsesInputItem) : Bool :=
  hasType item "web_search_call" && pickString item ["status"] == some "completed".toList

def completedWebSearchCallCount (items : List ResponsesInputItem) (invalidatedIds : List Text)
    (excludeAnonymous : Bool) : Nat :=
  let completed := items.filter isCompletedWebSearchCall
  let ids := (completed.filterMap webSearchCallId).filter fun id => !invalidatedIds.contains id
  let anonymous := (completed.filter fun item => (webSearchCallId item).isNone).length
  saturatedWebSearchCount
    ((ids.foldl addToSet []).length + if excludeAnonymous then 0 else anonymous)

def nonCompletedWebSearchCallIds (items : List ResponsesInputItem) : List Text :=
  ((items.filter isNonCompletedWebSearchCall).filterMap webSearchCallId).foldl addToSet []

def hasNonCompletedWebSearchCall (items : List ResponsesInputItem) : Bool :=
  items.any isNonCompletedWebSearchCall

def hasAnonymousNonCompletedWebSearchCall (items : List ResponsesInputItem) : Bool :=
  items.any fun item => isNonCompletedWebSearchCall item && (webSearchCallId item).isNone

section Sources

variable [UrlParser]

/-- One candidate of `addSources`; sixteen sources are enough. -/
def addSource (sources : List WebSource) (candidate : Json) : List WebSource :=
  if sources.length ≥ 16 then sources
  else
    let source := asRecord (some candidate)
    let url :=
      match candidate with
      | .str value => some value
      | _ => pickString source ["url", "uri", "link", "source_url"]
    match url with
    | none => sources
    | some url =>
        if url.isEmpty || utf16Length url > 2048 || sources.any fun known => known.url == url then
          sources
        else
          match UrlParser.parse url with
          | none => sources
          | some parsed =>
              if parsed.protocol != "https:".toList then sources
              else
                let title := trim ((pickString source ["title", "name"]).getD [])
                sources ++ [⟨url, if !title.isEmpty && utf16Length title ≤ 300 then title
                  else parsed.hostname⟩]

structure SourceOptions where
  includeAnnotations : Bool
  invalidatedIds : List Text
  excludeAnonymousCalls : Bool

/-- What an item offers as sources. -/
def sourceCandidates (options : SourceOptions) (item : ResponsesInputItem) : List Json :=
  if hasType item "web_search_call" then
    if !isCompletedWebSearchCall item then []
    else
      let dropped :=
        match webSearchCallId item with
        | some callId => options.invalidatedIds.contains callId
        | none => options.excludeAnonymousCalls
      if dropped then []
      else
        let action := asRecord (property item "action")
        .obj action :: (arrayItems (property action "sources") ++
          arrayItems (property item "sources"))
  else if !options.includeAnnotations || !hasType item "message" then []
  else
    (arrayItems (property item "content")).flatMap fun value =>
      (arrayItems (property (asRecord (some value)) "annotations")).filter fun candidate =>
        pickString (asRecord (some candidate)) ["type"] == some "url_citation".toList

def extractWebSearchSources (items : List ResponsesInputItem) (options : SourceOptions) :
    List WebSource :=
  (items.flatMap (sourceCandidates options)).foldl addSource []

def appendUniqueWebSources (target incoming : List WebSource) : List WebSource :=
  incoming.foldl
    (fun target source =>
      if target.length ≥ 16 || target.any fun known => known.url == source.url then target
      else target ++ [source])
    target

end Sources

/-! ## 4. Parts of a terminal response -/

def extractOutputText (items : List ResponsesInputItem) : Text :=
  (items.filter fun item => hasType item "message").flatMap fun item =>
    (arrayItems (property item "content")).flatMap fun value =>
      let content := asRecord (some value)
      if pickString content ["type"] == some "output_text".toList then
        (pickString content ["text"]).getD []
      else []

section Numbers

variable [JsonNumber]

def parseResponsesUsage (value : Option Json) : Option ResponsesUsage :=
  let usage := asRecord value
  if usage.isEmpty then none
  else
    some
      { inputTokens := pickNumber usage ["input_tokens"]
        cachedInputTokens :=
          pickNumber (asRecord (property usage "input_tokens_details")) ["cached_tokens"]
        outputTokens := pickNumber usage ["output_tokens"]
        reasoningTokens :=
          pickNumber (asRecord (property usage "output_tokens_details")) ["reasoning_tokens"]
        totalTokens := pickNumber usage ["total_tokens"] }

end Numbers

def parseFailure (error : UnknownRecord) : ResponsesFailure :=
  { code := pickString error ["code"]
    message :=
      (pickString error ["message", "code"]).getD "DeepSeek Responses request failed.".toList }

/-! ## 5. The stream -/

inductive ResponsesToolChoice where
  | none
  | auto
  | required
  | function (name : Text)
  | web_search
  | web_search_2025_08_26
  deriving DecidableEq, Repr

def isForcedWebSearch (toolChoice : Option ResponsesToolChoice) : Bool :=
  match toolChoice with
  | some .web_search | some .web_search_2025_08_26 => true
  | _ => false

/-- What the request, the response's headers and the clock contribute. -/
structure StreamContext where
  toolChoice : Option ResponsesToolChoice
  providerRequestId : Option Text
  /-- `Math.round(performance.now() - startedAt)` at the first event. -/
  elapsedMs : Int

structure SourceGroup where
  callId : Option Text
  sources : List WebSource

structure StreamState where
  responseId : Option Text
  lastSequence : Num
  firstEventLatencyMs : Option Nat
  outputText : Text
  emittedCalls : List Text
  streamedCompletedWebSearchIds : List Text
  streamedFailedWebSearchIds : List Text
  sawAnonymousStreamedWebSearchCompletion : Bool
  sawAnonymousStreamedWebSearchFailure : Bool
  sawExplicitWebSearchFailure : Bool
  streamedWebSourceGroups : List SourceGroup
  streamedContinuationItems : List IndexedContinuationItem

def StreamState.initial : StreamState :=
  { responseId := none
    lastSequence := ⟨"-1".toList, -1⟩
    firstEventLatencyMs := none
    outputText := []
    emittedCalls := []
    streamedCompletedWebSearchIds := []
    streamedFailedWebSearchIds := []
    sawAnonymousStreamedWebSearchCompletion := false
    sawAnonymousStreamedWebSearchFailure := false
    sawExplicitWebSearchFailure := false
    streamedWebSourceGroups := []
    streamedContinuationItems := [] }

/-- What an event is for the loop, before its type is looked at. -/
inductive Admission where
  | skip
  | backwards (sequence : Num)
  | semantic (event : UnknownRecord) (eventType : Text) (lastSequence : Num)

def admitEvent [JsonNumber] (lastSequence : Num) (rawEvent : Json) : Admission :=
  let event := asRecord (some rawEvent)
  match pickString event ["type"] with
  | none => .skip
  | some eventType =>
      match pickNumber event ["sequence_number"] with
      | some sequence =>
          if sequence.value = lastSequence.value then .skip
          else if sequence.value < lastSequence.value then .backwards sequence
          else .semantic event eventType sequence
      | none => .semantic event eventType lastSequence

/-- What one event leads to, with the events emitted on the way. -/
inductive Handled where
  | next (state : StreamState) (emitted : List ResponsesStreamEvent)
  | failed (emitted : List ResponsesStreamEvent) (error : ProviderResponseError)
  | finished (emitted : List ResponsesStreamEvent) (finish : ResponsesFinish)

/-- A completed web search among the streamed items. -/
def noteCompletedWebSearch [UrlParser] (s : StreamState) (item : ResponsesInputItem) :
    StreamState :=
  let callId := webSearchCallId item
  let s :=
    match callId with
    | some callId =>
        { s with
          streamedCompletedWebSearchIds := addToSet s.streamedCompletedWebSearchIds callId }
    | none => { s with sawAnonymousStreamedWebSearchCompletion := true }
  { s with
    streamedWebSourceGroups := s.streamedWebSourceGroups ++
      [⟨callId, extractWebSearchSources [item] ⟨true, [], false⟩⟩] }

def noteFailedWebSearch (s : StreamState) (callId : Option Text) : StreamState :=
  let s :=
    match callId with
    | some callId =>
        { s with streamedFailedWebSearchIds := addToSet s.streamedFailedWebSearchIds callId }
    | none => { s with sawAnonymousStreamedWebSearchFailure := true }
  { s with sawExplicitWebSearchFailure := true }

/-- `response.output_item.done`. A continuation item is kept before it is checked. -/
def handleOutputItemDone [UrlParser] [JsonNumber] (s : StreamState) (event : UnknownRecord) :
    Handled :=
  let item := asRecord (property event "item")
  let remembered :=
    if isContinuationItemType (pickString item ["type"]) then
      rememberContinuationItem s.streamedContinuationItems
        ⟨pickNumber event ["output_index"], item⟩
    else .ok s.streamedContinuationItems
  match remembered with
  | .error error => .failed [] error
  | .ok items =>
      let s := { s with streamedContinuationItems := items }
      if pickString item ["type"] == some "function_call".toList then
        match functionCallParts item with
        | none =>
            .failed [] (malformed "DeepSeek returned an incomplete function_call item.".toList)
        | some (callId, name, args) =>
            if s.emittedCalls.contains callId then .next s []
            else
              .next { s with emittedCalls := s.emittedCalls ++ [callId] }
                [.functionCall callId name args]
      else if isCompletedWebSearchCall item then .next (noteCompletedWebSearch s item) []
      else if isNonCompletedWebSearchCall item then
        .next (noteFailedWebSearch s (webSearchCallId item)) []
      else .next s []

/-- The calls of a completed response that were not emitted while it streamed. -/
def emitTerminalCalls (emittedCalls : List Text) :
    List ResponsesInputItem → List ResponsesStreamEvent × Option ProviderResponseError
  | [] => ([], none)
  | item :: rest =>
      if hasType item "function_call" then
        match functionCallParts item with
        | none =>
            ([], some (malformed
              "DeepSeek terminal response contained an incomplete function_call item.".toList))
        | some (callId, name, args) =>
            if emittedCalls.contains callId then emitTerminalCalls emittedCalls rest
            else
              let after := emitTerminalCalls (emittedCalls ++ [callId]) rest
              (.functionCall callId name args :: after.1, after.2)
      else emitTerminalCalls emittedCalls rest

/-- The web searches a response may claim, and their sources. -/
def webSearchResult [UrlParser] (context : StreamContext) (s : StreamState)
    (status : TerminalStatus) (continuationItems : List ResponsesInputItem) :
    Nat × List WebSource :=
  let hasAnonymousWebSearchFailure :=
    s.sawAnonymousStreamedWebSearchFailure ||
      hasAnonymousNonCompletedWebSearchCall continuationItems
  let invalidatedWebSearchIds :=
    s.streamedFailedWebSearchIds ++ nonCompletedWebSearchCallIds continuationItems
  let streamedCompletedWebSearchCount :=
    saturatedWebSearchCount
      ((s.streamedCompletedWebSearchIds.filter fun id =>
          !invalidatedWebSearchIds.contains id).length +
        if s.sawAnonymousStreamedWebSearchCompletion && !hasAnonymousWebSearchFailure then 1 else 0)
  let terminalCompletedWebSearchCount :=
    completedWebSearchCallCount continuationItems invalidatedWebSearchIds
      hasAnonymousWebSearchFailure
  let hasExplicitWebSearchFailure :=
    s.sawExplicitWebSearchFailure || hasNonCompletedWebSearchCall continuationItems
  let groups := s.streamedWebSourceGroups.filter fun group =>
    match group.callId with
    | some callId => !invalidatedWebSearchIds.contains callId
    | none => !hasAnonymousWebSearchFailure
  let streamedSources :=
    groups.foldl (fun sources group => appendUniqueWebSources sources group.sources) []
  let webSources := appendUniqueWebSources streamedSources
    (extractWebSearchSources continuationItems
      ⟨!hasExplicitWebSearchFailure, invalidatedWebSearchIds, hasAnonymousWebSearchFailure⟩)
  let explicitCompletedWebSearchCalls :=
    saturatedWebSearchCount (max streamedCompletedWebSearchCount terminalCompletedWebSearchCount)
  let completedWebSearchCalls :=
    if explicitCompletedWebSearchCalls > 0 then explicitCompletedWebSearchCalls
    else if status = .completed && isForcedWebSearch context.toolChoice &&
        !hasExplicitWebSearchFailure && !webSources.isEmpty then 1
    else 0
  (completedWebSearchCalls, webSources)

section Stream

variable [UrlParser] [JsonNumber] (context : StreamContext)

/-- The finish event of a terminal response, and the sources emitted before it. -/
def finishResponse (s : StreamState) (event : UnknownRecord) (status : TerminalStatus)
    (responseId : Text) (continuationItems : List ResponsesInputItem) :
    List ResponsesStreamEvent × ResponsesFinish :=
  let response := asRecord (property event "response")
  let webSearch := webSearchResult context s status continuationItems
  let finish : ResponsesFinish :=
    { status := status
      responseId := responseId
      outputText :=
        if s.outputText.isEmpty then extractOutputText continuationItems else s.outputText
      continuationItems := continuationItems
      usage := parseResponsesUsage (property response "usage")
      incomplete :=
        if status = .incomplete then
          some (pickString (asRecord (property response "incomplete_details")) ["reason"])
        else none
      error :=
        if status = .failed then
          some (parseFailure (asRecord (nullish (property response "error")
            (property event "error"))))
        else none
      providerRequestId := context.providerRequestId
      firstEventLatencyMs := s.firstEventLatencyMs
      completedWebSearchCalls := webSearch.1 }
  let sources :=
    if status = .completed ∧ webSearch.1 > 0 ∧ webSearch.2.length > 0 then
      [.webSearchSources webSearch.2]
    else []
  (sources, finish)

/-- `response.completed`, `response.incomplete` and `response.failed`. -/
def handleTerminal (s : StreamState) (event : UnknownRecord) (eventType : Text)
    (status : TerminalStatus) : Handled :=
  match s.responseId with
  | none => .failed [] (malformed (eventType ++ " omitted response.id.".toList))
  | some responseId =>
      match mergeResponseOutputItems
          (responseOutputItems (asRecord (property event "response")))
          s.streamedContinuationItems with
      | .error error => .failed [] error
      | .ok continuationItems =>
          let calls :=
            if status = .completed then emitTerminalCalls s.emittedCalls continuationItems
            else ([], none)
          match calls.2 with
          | some error => .failed calls.1 error
          | none =>
              let closing := finishResponse context s event status responseId continuationItems
              .finished (calls.1 ++ closing.1) closing.2

/-- The state when an event has been admitted: its sequence number, the first event's latency
    and the response's id. -/
def StreamState.hear (s : StreamState) (event : UnknownRecord) (lastSequence : Num) :
    StreamState :=
  { s with
    lastSequence := lastSequence
    firstEventLatencyMs :=
      match s.firstEventLatencyMs with
      | some latency => some latency
      | none => some (max 0 context.elapsedMs).toNat
    responseId :=
      match pickString (asRecord (property event "response")) ["id"] with
      | some id => some id
      | none => s.responseId }

def handleEvent (s : StreamState) (event : UnknownRecord) (eventType : Text) : Handled :=
  if eventType == "response.created".toList then
    match s.responseId with
    | none => .failed [] (malformed "DeepSeek response.created omitted response.id.".toList)
    | some responseId => .next s [.responseCreated responseId]
  else if eventType == "response.output_text.delta".toList then
    match pickString event ["delta"] with
    | some delta => .next { s with outputText := s.outputText ++ delta } [.textDelta delta]
    | none => .next s []
  else if eventType == "response.output_item.done".toList then handleOutputItemDone s event
  else if isWebSearchFailureEvent eventType then
    .next (noteFailedWebSearch s (webSearchEventCallId event)) []
  else
    match webSearchStatus eventType with
    | some status =>
        let callId := webSearchEventCallId event
        let s :=
          if status = .completed then
            match callId with
            | some callId =>
                { s with
                  streamedCompletedWebSearchIds :=
                    addToSet s.streamedCompletedWebSearchIds callId }
            | none => { s with sawAnonymousStreamedWebSearchCompletion := true }
          else s
        .next s [.webSearchStatus status callId]
    | none =>
        match terminalResponseStatus eventType with
        | some status => handleTerminal context s event eventType status
        | none => .next s []

/-- How the provider's stream stops when no event finished it: at its end, or by an exception
    (a broken connection, a limit, unreadable data, the deadline). -/
inductive StreamEnd where
  | ended
  | failed

inductive StreamError where
  | response (error : ProviderResponseError)
  | transport

/-- What the consumer of the stream sees: the events, then the exception if there is one. -/
structure StreamRun where
  events : List ResponsesStreamEvent
  error : Option StreamError

def endedWithoutTerminal : ProviderResponseError :=
  malformed "DeepSeek Responses stream ended without a terminal semantic event.".toList

def sequenceMovedBackwards (sequence last : Num) : ProviderResponseError :=
  malformed ("DeepSeek Responses sequence moved backwards (".toList ++ sequence.text ++
    " after ".toList ++ last.text ++ ").".toList)

def streamFrom (s : StreamState) (events : List Json) (stop : StreamEnd) : StreamRun :=
  match events with
  | [] =>
      match stop with
      | .ended => ⟨[], some (.response endedWithoutTerminal)⟩
      | .failed => ⟨[], some .transport⟩
  | rawEvent :: rest =>
      match admitEvent s.lastSequence rawEvent with
      | .skip => streamFrom s rest stop
      | .backwards sequence =>
          ⟨[], some (.response (sequenceMovedBackwards sequence s.lastSequence))⟩
      | .semantic event eventType lastSequence =>
          match handleEvent context (s.hear context event lastSequence) event eventType with
          | .next s emitted =>
              let after := streamFrom s rest stop
              ⟨emitted ++ after.events, after.error⟩
          | .failed emitted error => ⟨emitted, some (.response error)⟩
          | .finished emitted finish => ⟨emitted ++ [.finish finish], none⟩

def stream (events : List Json) (stop : StreamEnd) : StreamRun :=
  streamFrom context .initial events stop

end Stream

/-! ## 6. The next request: server/agent/orchestrator.ts -/

/-- `[...currentInput, ...continuationItems, ...outputs]`. -/
def continuedInput (currentInput continuationItems outputs : List ResponsesInputItem) :
    List ResponsesInputItem := currentInput ++ continuationItems ++ outputs

end OpenVac.Providers
