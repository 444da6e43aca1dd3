/-
  File:      OpenVac/Agent/WebEvidence.lean
  Subject:   Web evidence: server/agent/web-evidence.ts and server/agent/public-url.ts.

  * The provider's discovery is an arbitrary list of candidates; the fetcher's answer is a
    parameter.
  * `loadDomainPolicies` -- the built-in domains, then the enabled rows of tier A and B, as a `Map`:
    a row replaces the entry of its domain in place.
  * `governCandidates`, `fetchCandidates` -- what is looked up, and what becomes evidence.
-/
import OpenVac.Agent.EvidenceRegistry
import OpenVac.ChatV3.VerifiedLinkLabel

namespace OpenVac.Agent

open JsString JsRegex JsUrl Chat ChatV3

/-! ## 1. Public URLs -/

def SENSITIVE_QUERY_PREFIX : Regex := cats [start, words ["x-amz-", "x-oss-", "x-goog-"]]

def SENSITIVE_QUERY_KEY : Regex :=
  cats
    [start,
     alts
       [words ["signature", "sig", "ossaccesskeyid", "accesskeyid", "expires", "token"],
        cats [lit "access", opt (oneOf "_-"), lit "token"],
        cats [lit "refresh", opt (oneOf "_-"), lit "token"],
        cats [lit "id", opt (oneOf "_-"), lit "token"],
        cats [lit "api", opt (oneOf "_-"), lit "key"],
        words ["apikey", "auth", "authorization", "credential"],
        cats [lit "client", opt (oneOf "_-"), lit "secret"],
        words ["password", "secret", "session"], cats [lit "session", opt (oneOf "_-"), lit "id"],
        lit "jwt"], finish]

def hasSensitiveUrlParameters (url : Url) : Bool :=
  url.searchKeys.any fun key => test SENSITIVE_QUERY_PREFIX key || test SENSITIVE_QUERY_KEY key

def MAX_PUBLIC_URL_CHARACTERS : Nat := 2048

def MAX_DISCOVERY_URL_CHARACTERS : Nat := 2000

/-- A public https URL, without its fragment. -/
def parsePublicHttpsUrl [UrlParser] (value : Text) : Option Url :=
  match UrlParser.parse value with
  | none => none
  | some url =>
      if MAX_PUBLIC_URL_CHARACTERS < utf16Length url.href ∨ plainHttps url = false ∨
          hasSensitiveUrlParameters url = true then none
      else some url.withoutHash

/-! ## 2. Domain policies -/

/-- A row of `web_domain_policy`. -/
structure DomainPolicyRow where
  domain : Text
  trustTier : SourceTrustTier
  licenseClass : Text
  enabled : Bool
  deriving DecidableEq, Repr

structure WebDomainPolicy where
  domain : Text
  trustTier : SourceTrustTier
  licenseClass : LicenseClass
  deriving DecidableEq, Repr

def isAllowedFinalTier (tier : SourceTrustTier) : Bool := tier == .tier_a || tier == .tier_b

def normalizeLicense (value : Text) : LicenseClass :=
  if value = "open".toList then .open_
  else if value = "public_domain".toList then .public_domain
  else if value = "metadata_only".toList then .metadata_only
  else if value = "private_authorized".toList then .private_authorized
  else .unknown

/-- `byDomain.set(policy.domain, policy)`: an entry keeps its place. -/
def setPolicy (table : List WebDomainPolicy) (policy : WebDomainPolicy) : List WebDomainPolicy :=
  if table.any fun entry => entry.domain == policy.domain then
    table.map fun entry => if entry.domain == policy.domain then policy else entry
  else table ++ [policy]

def defaultPolicies : List WebDomainPolicy :=
  defaultTierADomains.map fun domain =>
    { domain := domain
      trustTier := .tier_a
      licenseClass := if decide (".gov".toList <:+ domain) then .public_domain else .metadata_only }

section Policies

variable [CaseTables]

def loadPolicy (table : List WebDomainPolicy) (row : DomainPolicyRow) : List WebDomainPolicy :=
  if isAllowedFinalTier row.trustTier then
    setPolicy table
      { domain := CaseTables.toLowerCase row.domain
        trustTier := row.trustTier
        licenseClass := normalizeLicense row.licenseClass }
  else table

/-- The effective table, from the rows in the order the query returns them. -/
def loadDomainPolicies (configured : List DomainPolicyRow) : List WebDomainPolicy :=
  (configured.filter (·.enabled)).foldl loadPolicy defaultPolicies

variable [UrlParser]

def policyForUrl (url : Text) (policies : List WebDomainPolicy) : Option WebDomainPolicy :=
  match UrlParser.parse url with
  | none => none
  | some parsed =>
      if !plainHttps parsed then none
      else
        let hostname := CaseTables.toLowerCase parsed.hostname
        policies.find? fun policy => withinDomain hostname policy.domain

end Policies

/-! ## 3. Candidates -/

structure WebCandidate where
  url : Text
  title : Text
  summary : Text
  deriving DecidableEq, Repr

structure GovernedCandidate where
  url : Text
  title : Text
  summary : Text
  policy : WebDomainPolicy
  deriving DecidableEq, Repr

section Host

variable [UnicodeTables] [CaseTables] [UrlParser]

def sanitizeCandidateTitle (value : Text) (url : Url) : Text :=
  let blanked := (nfkc value).map fun c => if isControlOrFormat c then ' ' else c
  let title := trim (collapseSpaces blanked)
  if UnicodeTables.toLocaleLowerCase title = UnicodeTables.toLocaleLowerCase url.hostname then
    VERIFIED_LINK_LABEL_FALLBACK
  else canonicalVerifiedLinkLabel title

/-- The candidate with its policy, if one governs it and its URL is new. -/
def governCandidate (policies : List WebDomainPolicy) (seen : List Text) (candidate : WebCandidate) :
    Option GovernedCandidate :=
  if MAX_DISCOVERY_URL_CHARACTERS < utf16Length candidate.url then none
  else
    match parsePublicHttpsUrl candidate.url with
    | none => none
    | some publicUrl =>
        if MAX_DISCOVERY_URL_CHARACTERS < utf16Length publicUrl.href ∨
            seen.contains publicUrl.href = true then none
        else
          (policyForUrl publicUrl.href policies).map fun policy =>
            { url := publicUrl.href
              title := sanitizeCandidateTitle candidate.title publicUrl
              summary := clip 1000 (trim candidate.summary)
              policy := policy }

/-- The loop over the candidates; it ends with the eighth accepted one. -/
def governFrom (policies : List WebDomainPolicy) :
    List GovernedCandidate → List WebCandidate → List GovernedCandidate
  | accepted, [] => accepted
  | accepted, candidate :: rest =>
      match governCandidate policies (accepted.map (·.url)) candidate with
      | none => governFrom policies accepted rest
      | some governed =>
          if (accepted ++ [governed]).length = 8 then accepted ++ [governed]
          else governFrom policies (accepted ++ [governed]) rest

def governCandidates (candidates : List WebCandidate) (policies : List WebDomainPolicy) :
    List GovernedCandidate :=
  governFrom policies [] candidates

/-! ## 4. Fetched pages -/

/-- What the fetcher returns. -/
structure Page where
  url : Text
  body : Text
  fetchedAt : Int
  deriving DecidableEq, Repr

/-- `[\s\S]*?`. -/
def anythingLazy : Regex := .rep (.set fun _ => true) 0 none false

/-- An element with its contents. -/
def wholeElement (name : String) : Regex :=
  cats [lit "<", lit name, wordBoundary, star (noneOf ">"), lit ">", anythingLazy, lit "</", lit name,
    lit ">"]

def htmlToPlainText (value : Text) : Text :=
  let bare :=
    [wholeElement "script", wholeElement "style", wholeElement "noscript",
     cats [lit "<!--", anythingLazy, lit "-->"], cats [lit "<", plus (noneOf ">"), lit ">"],
     lit "&nbsp;"].foldl (fun text pattern => replaceAll pattern [' '] text) value
  let decoded :=
    [("&amp;", '&'), ("&lt;", '<'), ("&gt;", '>'), ("&quot;", '"'), ("&#39;", '\'')].foldl
      (fun text entity => replaceAll (lit entity.1) [entity.2] text) bare
  clip 12000 (trim (collapseSpaces decoded))

def excerptLimit (license : LicenseClass) : Nat :=
  match license with
  | .open_ | .public_domain | .private_authorized => 2600
  | .metadata_only | .unknown => 480

structure VerifiedLink where
  linkId : Text
  url : Text
  label : Text
  hostname : Text
  evidenceIds : List Text
  deriving DecidableEq, Repr

variable [Sha256]

def urlDigest (url : Text) : Text := clip 24 (Sha256.hex url)

/-- The sanitized evidence of a page under a title that is safe as a label. -/
def sanitizedPage (title : Text) (publicUrl : Url) (license : LicenseClass) (fetchedAt : Int)
    (excerpt : Text) : GroundingEvidence :=
  let sanitized := sanitizeGroundingEvidence
    { citation :=
        { sourceId := "web:".toList ++ urlDigest publicUrl.href
          title := title
          publisher := publicUrl.hostname
          url := publicUrl.href
          pageOrSection := none
          fetchedAt := fetchedAt
          licenseClass := license }
      excerpt := excerpt } (excerptLimit license)
  let finalLabel := canonicalVerifiedLinkLabel sanitized.citation.title
  { sanitized with citation := { sanitized.citation with title := finalLabel } }

/-- The evidence of a fetched page, its policy and its URL, if the candidate's policy still
    governs where the fetch ended and the page has text. -/
def pageEvidence (candidate : GovernedCandidate) (page : Page) :
    Option (GroundingEvidence × WebDomainPolicy × Url) := do
  let publicUrl ← parsePublicHttpsUrl page.url
  let finalPolicy ← policyForUrl publicUrl.href [candidate.policy]
  let excerpt := htmlToPlainText page.body
  if utf16Length excerpt < 80 then none
  else
    return (sanitizedPage candidate.title publicUrl finalPolicy.licenseClass page.fetchedAt excerpt,
      finalPolicy, publicUrl)

structure FetchState where
  registry : EvidenceRegistry
  evidenceIds : List Text
  verifiedLinks : List VerifiedLink

/-- One candidate with the page it was fetched as, if any. -/
def fetchCandidate (fetch : GovernedCandidate → Option Page) (state : FetchState)
    (candidate : GovernedCandidate) : FetchState :=
  match (fetch candidate).bind (pageEvidence candidate) with
  | none => state
  | some (evidence, finalPolicy, publicUrl) =>
      match EvidenceRegistry.add state.registry evidence
          { trustTier := some finalPolicy.trustTier
            reviewStatus := some .runtime_verified
            runtimeValidated := true } with
      | (none, registry) => { state with registry := registry }
      | (some id, registry) =>
          if state.evidenceIds.contains id then { state with registry := registry }
          else
            let hostname := CaseTables.toLowerCase publicUrl.hostname
            let linkId := 'W' :: decimal (state.verifiedLinks.length + 1)
            { registry := EvidenceRegistry.bindVerifiedLink registry id linkId hostname
              evidenceIds := state.evidenceIds ++ [id]
              verifiedLinks := state.verifiedLinks ++
                [{ linkId := linkId
                   url := publicUrl.href
                   label := evidence.citation.title
                   hostname := hostname
                   evidenceIds := [id] }] }

def fetchCandidates (fetch : GovernedCandidate → Option Page) (registry : EvidenceRegistry)
    (candidates : List GovernedCandidate) : FetchState :=
  (candidates.take 5).foldl (fetchCandidate fetch)
    { registry := registry, evidenceIds := [], verifiedLinks := [] }

end Host

end OpenVac.Agent
