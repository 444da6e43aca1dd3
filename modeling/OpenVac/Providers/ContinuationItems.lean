/-
  File:      OpenVac/Providers/ContinuationItems.lean
  Subject:   Records of a provider and the items of a continued request:
             server/providers/runtime.ts, server/providers/deepseek-responses.ts.

  * `asRecord`, `pickString`, `pickNumber` -- reading a parsed value.
  * `mergeResponseOutputItems` -- the items of the terminal response, then the streamed ones
    that are not among them.
  * `assertFunctionCallPairing` -- every call has one later output, no output is without a call.
-/
import Mathlib.Data.List.Sort
import OpenVac.Lib.Json

namespace OpenVac.Providers

open JsString

/-! ## 1. Records -/

abbrev UnknownRecord := List (Text × Json)

/-- The fields of an object; an array's are its indices. -/
def asRecord : Option Json → UnknownRecord
  | some (.obj fields) => fields
  | some (.arr items) => items.zipIdx.map fun entry => (Nat.toDigits 10 entry.2, entry.1)
  | _ => []

/-- `record[key]`. -/
def property (record : UnknownRecord) (key : String) : Option Json := Json.lookup record key.toList

/-- `value ?? other`. -/
def nullish (value other : Option Json) : Option Json :=
  match value with
  | none | some .null => other
  | some value => some value

def nonEmptyString : Option Json → Option Text
  | some (.str value) => if value.isEmpty then none else some value
  | _ => none

def pickString (record : UnknownRecord) (keys : List String) : Option Text :=
  keys.findSome? fun key => nonEmptyString (property record key)

/-- A finite number: its text and its value. -/
structure Num where
  text : Text
  value : ℚ

def finiteNumber [JsonNumber] : Option Json → Option Num
  | some (.num text) => (JsonNumber.finite text).map fun value => ⟨text, value⟩
  | _ => none

def pickNumber [JsonNumber] (record : UnknownRecord) (keys : List String) : Option Num :=
  keys.findSome? fun key => finiteNumber (property record key)

/-- `Array.isArray(value) ? value : []`. -/
def arrayItems : Option Json → List Json
  | some (.arr items) => items
  | _ => []

/-! ## 2. Errors -/

structure ProviderResponseError where
  message : Text
  retryable : Bool
  deriving DecidableEq, Repr

def malformed (message : Text) : ProviderResponseError := ⟨message, true⟩

def invalidContinuation (message : String) : ProviderResponseError := ⟨message.toList, false⟩

/-! ## 3. Items -/

/-- A record whose `type` is a string. -/
abbrev ResponsesInputItem := UnknownRecord

/-- `item.type`. -/
def itemType (item : ResponsesInputItem) : Option Text :=
  match property item "type" with
  | some (.str value) => some value
  | _ => none

/-- `item.type === type`. -/
def hasType (item : ResponsesInputItem) (type : String) : Bool := itemType item == some type.toList

def responseOutputItems (response : UnknownRecord) : List ResponsesInputItem :=
  (arrayItems (property response "output")).filterMap fun value =>
    let item := asRecord (some value)
    if (itemType item).isSome then some item else none

def isContinuationItemType (value : Option Text) : Bool :=
  ["message", "function_call", "reasoning", "web_search_call"].any fun type =>
    value == some type.toList

def webSearchCallId (value : UnknownRecord) : Option Text :=
  pickString value ["id", "item_id", "call_id"]

def continuationItemIdentity (item : ResponsesInputItem) : Option Text :=
  let byId := (pickString item ["id", "item_id"]).map fun id =>
    (itemType item).getD [] ++ ":id:".toList ++ id
  if hasType item "function_call" then
    match pickString item ["call_id"] with
    | some callId => some ("function_call:call:".toList ++ callId)
    | none => byId
  else if hasType item "web_search_call" then
    match webSearchCallId item with
    | some callId => some ("web_search_call:call:".toList ++ callId)
    | none => byId
  else byId

/-- A call with its id, name and arguments; `none` where one of them is missing. -/
def functionCallParts (item : ResponsesInputItem) : Option (Text × Text × Text) :=
  match pickString item ["call_id"], pickString item ["name"], pickString item ["arguments"] with
  | some callId, some name, some args => some (callId, name, args)
  | _, _, _ => none

def assertCompatibleContinuationItems (left right : ResponsesInputItem) :
    Except ProviderResponseError Unit :=
  if !hasType left "function_call" || !hasType right "function_call" then .ok ()
  else if pickString left ["call_id"] != pickString right ["call_id"] ||
      pickString left ["name"] != pickString right ["name"] ||
      pickString left ["arguments"] != pickString right ["arguments"] then
    .error (malformed "DeepSeek returned conflicting function_call continuation items.".toList)
  else .ok ()

/-! ## 4. Collecting and merging -/

def MAX_CONTINUATION_ITEMS : Nat := 256

structure IndexedContinuationItem where
  outputIndex : Option Num
  item : ResponsesInputItem

def tooManyItems : ProviderResponseError :=
  malformed "DeepSeek returned too many continuation items.".toList

/-- The list after the item was pushed, unless its identity is already there. -/
def rememberContinuationItem (target : List IndexedContinuationItem)
    (value : IndexedContinuationItem) :
    Except ProviderResponseError (List IndexedContinuationItem) :=
  let push : Except ProviderResponseError (List IndexedContinuationItem) :=
    if target.length ≥ MAX_CONTINUATION_ITEMS then .error tooManyItems else .ok (target ++ [value])
  match continuationItemIdentity value.item with
  | none => push
  | some identity =>
      match target.find? fun candidate =>
          continuationItemIdentity candidate.item == some identity with
      | some existing => do
          assertCompatibleContinuationItems existing.item value.item
          pure target
      | none => push

/-- The identities seen so far, each with its item. -/
abbrev Seen := List (Text × ResponsesInputItem)

def Seen.get (seen : Seen) (identity : Text) : Option ResponsesInputItem :=
  (seen.find? fun entry => entry.1 == identity).map (·.2)

def seeTerminalItem (seen : Seen) (item : ResponsesInputItem) : Except ProviderResponseError Seen :=
  match continuationItemIdentity item with
  | none => .ok seen
  | some identity =>
      if (seen.get identity).isSome then
        if hasType item "function_call" then
          .error (malformed "DeepSeek terminal output contains duplicate function calls.".toList)
        else .ok seen
      else .ok (seen ++ [(identity, item)])

/-- The index as far as it is a place in the list. -/
def spliceIndex (outputIndex : Option Num) : Option Nat :=
  match outputIndex with
  | some index =>
      if index.value.den = 1 ∧ 0 ≤ index.value.num ∧ index.value.num < MAX_CONTINUATION_ITEMS then
        some index.value.num.toNat
      else none
  | none => none

/-- `merged.splice(Math.min(index, merged.length), 0, item)`, or `merged.push(item)`. -/
def insertItem (merged : List ResponsesInputItem) (value : IndexedContinuationItem) :
    List ResponsesInputItem :=
  match spliceIndex value.outputIndex with
  | some index => merged.take index ++ value.item :: merged.drop index
  | none => merged ++ [value.item]

def mergeStreamedItem (acc : List ResponsesInputItem × Seen) (value : IndexedContinuationItem) :
    Except ProviderResponseError (List ResponsesInputItem × Seen) :=
  let insert (seen : Seen) : Except ProviderResponseError (List ResponsesInputItem × Seen) :=
    if acc.1.length ≥ MAX_CONTINUATION_ITEMS then .error tooManyItems
    else .ok (insertItem acc.1 value, seen)
  match continuationItemIdentity value.item with
  | none => insert acc.2
  | some identity =>
      match acc.2.get identity with
      | some existing => do
          assertCompatibleContinuationItems existing value.item
          pure acc
      | none => insert (acc.2 ++ [(identity, value.item)])

/-- `outputIndex ?? Number.MAX_SAFE_INTEGER`. -/
def sortKey (value : IndexedContinuationItem) : ℚ :=
  match value.outputIndex with
  | some index => index.value
  | none => 9007199254740991

def mergeResponseOutputItems (terminalItems : List ResponsesInputItem)
    (streamedItems : List IndexedContinuationItem) :
    Except ProviderResponseError (List ResponsesInputItem) := do
  if terminalItems.length > MAX_CONTINUATION_ITEMS then
    .error (malformed "DeepSeek returned too many terminal output items.".toList)
  else
    let seen ← terminalItems.foldlM seeTerminalItem []
    -- `toSorted` is stable
    let sorted := streamedItems.insertionSort fun left right => sortKey left ≤ sortKey right
    let merged ← sorted.foldlM mergeStreamedItem (terminalItems, seen)
    pure merged.1

/-! ## 5. Pairing -/

/-- The ids of the calls and of the outputs met so far, with their positions. -/
structure Pairing where
  calls : List (Text × Nat)
  outputs : List (Text × Nat)

def pairItem (acc : Pairing) (entry : ResponsesInputItem × Nat) :
    Except ProviderResponseError Pairing := do
  let (item, index) := entry
  if hasType item "function_call" then
    match functionCallParts item with
    | some (callId, _, _) =>
        if acc.calls.any fun call => call.1 == callId then
          .error (invalidContinuation "Responses input contains an invalid function_call.")
        else .ok { acc with calls := acc.calls ++ [(callId, index)] }
    | none => .error (invalidContinuation "Responses input contains an invalid function_call.")
  else if hasType item "function_call_output" then
    match pickString item ["call_id"], property item "output" with
    | some callId, some (.str _) =>
        if acc.outputs.any fun output => output.1 == callId then
          .error (invalidContinuation "Responses input contains an invalid function_call_output.")
        else .ok { acc with outputs := acc.outputs ++ [(callId, index)] }
    | _, _ =>
        .error (invalidContinuation "Responses input contains an invalid function_call_output.")
  else .ok acc

/-- The call has an output behind it. -/
def answeredLater (outputs : List (Text × Nat)) (call : Text × Nat) : Bool :=
  match outputs.find? fun output => output.1 == call.1 with
  | some output => decide (call.2 < output.2)
  | none => false

def assertFunctionCallPairing (input : List ResponsesInputItem) :
    Except ProviderResponseError Unit := do
  let pairing ← input.zipIdx.foldlM pairItem ⟨[], []⟩
  if !pairing.calls.all (answeredLater pairing.outputs) then
    .error
      (invalidContinuation "Responses input must pair every function_call with a later output.")
  else if pairing.outputs.any fun output => !pairing.calls.any fun call => call.1 == output.1 then
    .error (invalidContinuation "Responses input contains an orphan function_call_output.")
  else .ok ()

end OpenVac.Providers
