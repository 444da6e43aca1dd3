/-
  File:      OpenVac/Agent/EvidenceRegistry.lean
  Subject:   The evidence of a run: server/agent/evidence-registry.ts.

  * A registry is the list of its entries in the order of their ids `E1`, `E2`, ….
  * `inferTrustTier` -- the tier of a source nobody vouches for: the built-in domains are tier A.
-/
import OpenVac.Agent.AnswerV3
import OpenVac.Chat.Evidence
import OpenVac.Lib.JsUrl

namespace OpenVac.Agent

open JsString JsUrl Chat

def TIER_A_DOMAINS : List Text :=
  ["nist.gov".toList, "hse.gov.uk".toList, "iso.org".toList, "cern.ch".toList, "leybold.com".toList,
   "leybold.cn".toList, "pfeiffer-vacuum.com".toList, "edwardsvacuum.com".toList,
   "buschvacuum.com".toList, "atlascopco.com".toList]

def defaultTierADomains : List Text := TIER_A_DOMAINS

/-- The host is the domain or below it. -/
def withinDomain (hostname domain : Text) : Bool :=
  hostname == domain || decide ('.' :: domain <:+ hostname)

def isLocalOrPrivateHostname (hostname : Text) : Bool :=
  let opened := if hostname.head? == some '[' then hostname.tail else hostname
  let normalized := if opened.getLast? == some ']' then opened.dropLast else opened
  if normalized == "localhost".toList || normalized == "::1".toList ||
      normalized == "0:0:0:0:0:0:0:1".toList || decide (".localhost".toList <:+ normalized) ||
      ["fc", "fd", "fe8", "fe9", "fea", "feb"].any fun head => head.toList.isPrefixOf normalized then
    true
  else
    match (split '.' normalized).map decimalPart with
    | [some a, some b, some _, some _] =>
        a == 0 || a == 10 || a == 127 || (a == 169 && b == 254) ||
          (a == 172 && 16 ≤ b && b ≤ 31) || (a == 192 && b == 168)
    | _ => false

section Host

variable [UrlParser] [CaseTables]

/-- https on the default port, without credentials. -/
def plainHttps (url : Url) : Bool :=
  url.protocol == "https:".toList && url.username.isEmpty && url.password.isEmpty &&
    (url.port.isEmpty || url.port == "443".toList)

def inferTrustTier (url : Text) : SourceTrustTier :=
  match UrlParser.parse url with
  | none => .blocked
  | some parsed =>
      if !plainHttps parsed then .blocked
      else
        let hostname := CaseTables.toLowerCase parsed.hostname
        if isLocalOrPrivateHostname hostname then .blocked
        else if TIER_A_DOMAINS.any (withinDomain hostname) then .tier_a
        else .tier_c

end Host

structure RegisteredEvidence where
  id : Text
  evidence : GroundingEvidence
  originalSourceId : Text
  trustTier : SourceTrustTier
  reviewStatus : SourceReviewStatus
  runtimeValidated : Bool
  citationVisible : Bool
  linkId : Option Text
  linkHostname : Option Text
  deriving DecidableEq, Repr

abbrev EvidenceRegistry := List RegisteredEvidence

/-- What a caller of `add` vouches for. -/
structure EvidencePolicy where
  trustTier : Option SourceTrustTier
  reviewStatus : Option SourceReviewStatus
  runtimeValidated : Bool
  deriving DecidableEq, Repr

namespace EvidenceRegistry

def nextId (registry : EvidenceRegistry) : Text := 'E' :: decimal (registry.length + 1)

/-- The entry of an original source id. -/
def bySource (registry : EvidenceRegistry) (sourceId : Text) : Option RegisteredEvidence :=
  registry.find? fun entry => entry.originalSourceId == sourceId

def get (registry : EvidenceRegistry) (id : Text) : Option RegisteredEvidence :=
  registry.find? fun entry => entry.id == id

/-- The id of an added source, and the registry after. -/
def add [UrlParser] [CaseTables] (registry : EvidenceRegistry) (evidence : GroundingEvidence)
    (policy : EvidencePolicy) : Option Text × EvidenceRegistry :=
  let trustTier := policy.trustTier.getD (inferTrustTier evidence.citation.url)
  if trustTier = .tier_c ∨ trustTier = .blocked then (none, registry)
  else
    match bySource registry evidence.citation.sourceId with
    | some existing => (some existing.id, registry)
    | none =>
        let entry : RegisteredEvidence :=
          { id := nextId registry
            evidence := evidence
            originalSourceId := evidence.citation.sourceId
            trustTier := trustTier
            reviewStatus := policy.reviewStatus.getD
              (if policy.runtimeValidated then .runtime_verified else .pending_review)
            runtimeValidated := policy.runtimeValidated
            citationVisible := true
            linkId := none
            linkHostname := none }
        (some entry.id, registry ++ [entry])

def bindVerifiedLink (registry : EvidenceRegistry) (id linkId hostname : Text) : EvidenceRegistry :=
  registry.map fun entry =>
    if entry.id == id then { entry with linkId := some linkId, linkHostname := some hostname }
    else entry

/-- An entry as an answer cites it. -/
structure PublicCitation where
  citation : Citation
  trustTier : SourceTrustTier
  reviewStatus : SourceReviewStatus
  deriving DecidableEq, Repr

def citation (registry : EvidenceRegistry) (id : Text) : Option PublicCitation :=
  match get registry id with
  | none => none
  | some entry =>
      if entry.citationVisible then
        some
          { citation := { entry.evidence.citation with sourceId := id }
            trustTier := entry.trustTier
            reviewStatus := entry.reviewStatus }
      else none

def citations (registry : EvidenceRegistry) (ids : List Text) : List PublicCitation :=
  (unique ids).filterMap (citation registry)

end EvidenceRegistry

end OpenVac.Agent
