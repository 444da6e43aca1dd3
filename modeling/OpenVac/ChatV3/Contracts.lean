/-
  File:      OpenVac/ChatV3/Contracts.lean
  Subject:   The parts of a user's message: `inputMessagePartsSchema` of server/chat-v3/contracts.ts.

  * `z.url()` trims the text and checks it on its own; `new URL` is the host's parser.
-/
import OpenVac.Agent.AnswerV3
import OpenVac.ChatV3.VerifiedLinkLabel

namespace OpenVac.ChatV3

open JsString JsRegex JsUrl Agent

def MAX_CHAT_ATTACHMENTS_PER_MESSAGE : Nat := 5

def MAX_CHAT_TEXT_CHARACTERS : Nat := 16000

inductive InputMessagePart where
  | text (text : Text)
  | link (url : Text) (label : Option Text)
  | attachment (attachmentId : Text)
  deriving DecidableEq, Repr

def SENSITIVE_PARAMETER_PREFIX : Regex := cats [start, words ["x-amz-", "x-oss-"]]

def SENSITIVE_PARAMETER : Regex :=
  cats [start, words ["signature", "ossaccesskeyid", "accesskeyid", "expires", "token"], finish]

def hasSensitiveUrlParameters (url : Url) : Bool :=
  url.searchKeys.any fun key => test SENSITIVE_PARAMETER_PREFIX key || test SENSITIVE_PARAMETER key

inductive InputPartType where
  | text
  | link
  | attachment

def inputPartType : Json → Option InputPartType :=
  literal [("text", .text), ("link", .link), ("attachment", .attachment)]

section Host

variable [SchemaLibrary] [UrlParser]

/-- An https address without a signature or a token, without the blanks around it. -/
def linkUrl : Json → Option Text
  | .str value =>
      let s := trim value
      if SchemaLibrary.isUrl s ∧ utf16Length s ≤ 2048 then
        match UrlParser.parse s with
        | none => none
        | some url =>
            if url.protocol = "https:".toList ∧ hasSensitiveUrlParameters url = false then some s
            else none
      else none
  | _ => none

def inputMessagePartSchema : Json → Option InputMessagePart
  | .obj fields => do
      match ← field fields "type" inputPartType with
      | .text => return .text (← field fields "text" (trimmedText 1 MAX_CHAT_TEXT_CHARACTERS))
      | .link =>
          return .link (← field fields "url" linkUrl)
            (← optionalField fields "label" (trimmedText 1 240))
      | .attachment => return .attachment (← field fields "attachmentId" uuid)
  | _ => none

def attachmentIdsOf (parts : List InputMessagePart) : List Text :=
  parts.filterMap fun part =>
    match part with
    | .attachment attachmentId => some attachmentId
    | _ => none

def textCharacters (parts : List InputMessagePart) : Nat :=
  (parts.map fun part =>
    match part with
    | .text text => utf16Length text
    | _ => 0).sum

def inputMessagePartsSchema (value : Json) : Option (List InputMessagePart) := do
  let parts ← arrayOf inputMessagePartSchema 1 16 value
  if (attachmentIdsOf parts).length ≤ MAX_CHAT_ATTACHMENTS_PER_MESSAGE ∧
      (unique (attachmentIdsOf parts)).length = (attachmentIdsOf parts).length ∧
      textCharacters parts ≤ MAX_CHAT_TEXT_CHARACTERS then
    return parts
  else none

end Host

end OpenVac.ChatV3
