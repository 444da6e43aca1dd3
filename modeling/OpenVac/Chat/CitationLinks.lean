/-
  File:      OpenVac/Chat/CitationLinks.lean
  Subject:   Which links of an answer can be clicked: lib/citation-link-policy.ts.

  * `evaluateCitationLink` -- a citation's URL against the listed domains.
  * `evaluateVerifiedLinkPart` -- a link of an answer against the host the server bound to it.
  * `links_confined` -- what an allowed link is, and that invalid entries do not count; up to outer
    dots of the host, which the policy does not look at (`trailing_dot_allowed`).
-/
import OpenVac.Knowledge.WebFetch

namespace OpenVac.CitationLinks

open JsString JsUrl
open Knowledge (stripDots)

/-! ## 1. The policy -/

/-- A URL with its path. -/
structure PageUrl extends Url where
  pathname : Text

/-- `new URL(text)` of the host; `none` where it throws. -/
class PageUrlParser where
  parse : Text → Option PageUrl

structure CitationLinkPolicy where
  linkAllowed : Option Bool := none
  authoritative : Option Bool := none
  allowedDomains : Option (List Text) := none

inductive SourcePolicy where
  | policy (policy : CitationLinkPolicy)
  | authoritative
  | reference
  | blocked

structure CitationLinkInput where
  url : Text
  sourcePolicy : Option SourcePolicy := none
  allowedDomains : Option (List Text) := none

inductive CitationLinkDecision where
  | allowed (authoritative : Bool) (href : Text)
  | denied
  deriving DecidableEq

inductive LinkStatus where
  | verified
  | unavailable
  deriving DecidableEq, Repr

structure VerifiedLinkPartInput where
  url : Text
  hostname : Text
  status : LinkStatus

/-- What the policy of a source comes to. -/
structure NormalizedPolicy where
  linkAllowed : Bool
  authoritative : Bool
  allowedDomains : Option (List Text) := none

def normalizePolicy : Option SourcePolicy → NormalizedPolicy
  | some .authoritative => { linkAllowed := true, authoritative := true }
  | some .reference => { linkAllowed := true, authoritative := false }
  | none | some .blocked => { linkAllowed := false, authoritative := false }
  | some (.policy policy) =>
      { linkAllowed := policy.linkAllowed == some true
        authoritative := policy.authoritative == some true
        allowedDomains := policy.allowedDomains }

/-- `/[\u0000-\u001f\u007f]/`. -/
def isControl (c : Char) : Bool := c.toNat ≤ 0x1F || c.toNat == 0x7F

/-- The texts that are not handed to the URL parser. -/
def isRawUrlRefused (rawUrl : Text) : Bool :=
  rawUrl != trim rawUrl || rawUrl.any isControl || rawUrl.contains '\\' ||
    ['/', '/'].isPrefixOf rawUrl

/-- The characters no listed domain has. -/
def NOT_IN_DOMAIN : List Char := ['/', '\\', '@', ':', '*']

section Host

variable [CaseTables] [PageUrlParser]

def normalizeDomain (value : Text) : Option Text :=
  let trimmed := stripDots (CaseTables.toLowerCase (trim value))
  if trimmed.isEmpty || NOT_IN_DOMAIN.any fun c => trimmed.contains c then none
  else
    match PageUrlParser.parse ("https://".toList ++ trimmed) with
    | none => none
    | some parsed =>
        if parsed.hostname ≠ trimmed ∨ parsed.username ≠ [] ∨ parsed.password ≠ [] ∨
            parsed.port ≠ [] ∨ parsed.pathname ≠ ['/'] then none
        else some parsed.hostname

omit [PageUrlParser] in
def hostnameAllowed (hostname : Text) (allowedDomains : List Text) : Bool :=
  let normalized := stripDots (CaseTables.toLowerCase hostname)
  allowedDomains.any fun domain => normalized == domain || decide ('.' :: domain <:+ normalized)

/-- The entries of both lists. -/
def CitationLinkInput.listed (citation : CitationLinkInput) : List Text :=
  (normalizePolicy citation.sourcePolicy).allowedDomains.getD [] ++
    citation.allowedDomains.getD []

def evaluateCitationLink (citation : CitationLinkInput) : CitationLinkDecision :=
  let policy := normalizePolicy citation.sourcePolicy
  if policy.linkAllowed = false then .denied
  else
    let allowedDomains := citation.listed.filterMap normalizeDomain
    if allowedDomains.isEmpty then .denied
    else if isRawUrlRefused citation.url then .denied
    else
      match PageUrlParser.parse citation.url with
      | none => .denied
      | some parsed =>
          if parsed.protocol ≠ "https:".toList ∨ parsed.username ≠ [] ∨ parsed.password ≠ [] ∨
              (parsed.port ≠ [] ∧ parsed.port ≠ "443".toList) ∨
              hostnameAllowed parsed.hostname allowedDomains = false then .denied
          else .allowed policy.authoritative parsed.href

def evaluateVerifiedLinkPart (link : VerifiedLinkPartInput) : CitationLinkDecision :=
  if link.status ≠ .verified then .denied
  else
    match normalizeDomain link.hostname with
    | none => .denied
    | some normalizedHostname =>
        if isRawUrlRefused link.url then .denied
        else
          match PageUrlParser.parse link.url with
          | none => .denied
          | some parsed =>
              if parsed.protocol ≠ "https:".toList ∨ parsed.username ≠ [] ∨ parsed.password ≠ [] ∨
                  (parsed.port ≠ [] ∧ parsed.port ≠ "443".toList) ∨
                  CaseTables.toLowerCase parsed.hostname ≠ normalizedHostname then .denied
              else .allowed false parsed.href

end Host

/-! ## 2. Domains -/

/-- A host that is a domain, or stands below it behind a dot. -/
def Below (host domain : Text) : Prop :=
  host = domain ∨ ∃ label, label ≠ [] ∧ host = label ++ '.' :: domain

section Domains

variable [CaseTables] [PageUrlParser]

/-- An entry with a path, a backslash, credentials, a port or a wildcard is no domain. -/
theorem normalizeDomain_none {value : Text} {c : Char} (hc : c ∈ NOT_IN_DOMAIN)
    (hmem : c ∈ stripDots (CaseTables.toLowerCase (trim value))) :
    normalizeDomain value = none := by
  have hany : (NOT_IN_DOMAIN.any fun d =>
      (stripDots (CaseTables.toLowerCase (trim value))).contains d) = true :=
    List.any_eq_true.mpr ⟨c, hc, List.contains_iff_mem.mpr hmem⟩
  unfold normalizeDomain
  dsimp only
  rw [hany, Bool.or_true, if_pos rfl]

omit [CaseTables] [PageUrlParser] in
theorem stripDots_head {host rest : Text} : stripDots host ≠ '.' :: rest := by
  intro h
  have hhead : (host.dropWhile (· == '.')).head? ≠ some '.' := by
    intro hdot
    have hfalse := List.head?_dropWhile_not (· == '.') host
    rw [hdot] at hfalse
    simp at hfalse
  unfold stripDots at h
  obtain ⟨after, hafter⟩ := List.rdropWhile_prefix (· == '.') (host.dropWhile (· == '.'))
  rw [h] at hafter
  rw [← hafter] at hhead
  exact hhead rfl

omit [PageUrlParser] in
/-- **An allowed host** is a listed domain or stands below it behind a dot. -/
theorem below_of_hostnameAllowed {hostname : Text} {allowedDomains : List Text}
    (h : hostnameAllowed hostname allowedDomains = true) :
    ∃ domain ∈ allowedDomains, Below (stripDots (CaseTables.toLowerCase hostname)) domain := by
  unfold hostnameAllowed at h
  obtain ⟨domain, hdomain, hmatch⟩ := List.any_eq_true.mp h
  refine ⟨domain, hdomain, ?_⟩
  rw [Bool.or_eq_true, beq_iff_eq, decide_eq_true_eq] at hmatch
  rcases hmatch with heq | ⟨label, hlabel⟩
  · exact .inl heq
  · refine .inr ⟨label, ?_, hlabel.symm⟩
    rintro rfl
    exact stripDots_head hlabel.symm

end Domains

/-! ## 3. Allowed links -/

section Links

variable [CaseTables] [PageUrlParser]

/-- HTTPS, without a user or a password. -/
structure PlainHttps (url : Text) (href : Text) (parsed : PageUrl) : Prop where
  parses : PageUrlParser.parse url = some parsed
  target : href = parsed.href
  https : parsed.protocol = "https:".toList
  username : parsed.username = []
  password : parsed.password = []

theorem evaluateCitationLink_allowed {citation : CitationLinkInput} {authoritative : Bool}
    {href : Text} (h : evaluateCitationLink citation = .allowed authoritative href) :
    ∃ parsed, PlainHttps citation.url href parsed ∧
      ∃ entry ∈ citation.listed, ∃ domain, normalizeDomain entry = some domain ∧
        Below (stripDots (CaseTables.toLowerCase parsed.hostname)) domain := by
  unfold evaluateCitationLink at h
  dsimp only at h
  split at h
  · nomatch h
  · split at h
    · nomatch h
    · split at h
      · nomatch h
      · split at h
        · nomatch h
        · rename_i parsed hparsed
          split at h
          · nomatch h
          · rename_i hfields
            simp only [not_or, not_not, not_and, Bool.not_eq_false] at hfields
            obtain ⟨hhttps, huser, hpassword, -, hhost⟩ := hfields
            injection h with _ hhref
            obtain ⟨domain, hdomain, hbelow⟩ := below_of_hostnameAllowed hhost
            obtain ⟨entry, hentry, hnormal⟩ := List.mem_filterMap.mp hdomain
            exact ⟨parsed, ⟨hparsed, hhref.symm, hhttps, huser, hpassword⟩, entry, hentry, domain,
              hnormal, hbelow⟩

theorem evaluateVerifiedLinkPart_allowed {link : VerifiedLinkPartInput} {authoritative : Bool}
    {href : Text} (h : evaluateVerifiedLinkPart link = .allowed authoritative href) :
    link.status = .verified ∧ ∃ parsed, PlainHttps link.url href parsed ∧
      normalizeDomain link.hostname = some (CaseTables.toLowerCase parsed.hostname) := by
  unfold evaluateVerifiedLinkPart at h
  split at h
  · nomatch h
  · rename_i hstatus
    split at h
    · nomatch h
    · rename_i normalizedHostname hnormal
      split at h
      · nomatch h
      · split at h
        · nomatch h
        · rename_i parsed hparsed
          split at h
          · nomatch h
          · rename_i hfields
            simp only [not_or, not_not, not_and] at hfields
            obtain ⟨hhttps, huser, hpassword, -, hhost⟩ := hfields
            injection h with _ hhref
            rw [← hhost] at hnormal
            exact ⟨not_not.mp hstatus, parsed,
              ⟨hparsed, hhref.symm, hhttps, huser, hpassword⟩, hnormal⟩

/-- The decision reads the listed domains, not the entries. -/
theorem evaluateCitationLink_congr {citation other : CitationLinkInput}
    (hurl : other.url = citation.url) (hpolicy : other.sourcePolicy = citation.sourcePolicy)
    (hlisted : other.listed.filterMap normalizeDomain = citation.listed.filterMap normalizeDomain) :
    evaluateCitationLink other = evaluateCitationLink citation := by
  unfold evaluateCitationLink
  rw [hurl, hpolicy, hlisted]

/-- **Allowed links are confined**: a citation's link is HTTPS without credentials, on a listed
    domain or below one, outer dots of the host apart; entries that are no domain change nothing;
    and a verified link leads to the host that is bound to it. -/
theorem links_confined :
    (∀ (citation : CitationLinkInput) (authoritative : Bool) (href : Text),
      evaluateCitationLink citation = .allowed authoritative href →
        ∃ parsed, PlainHttps citation.url href parsed ∧
          ∃ entry ∈ citation.listed, ∃ domain, normalizeDomain entry = some domain ∧
            Below (stripDots (CaseTables.toLowerCase parsed.hostname)) domain) ∧
    (∀ (citation : CitationLinkInput) (before after : List Text) (entry : Text),
      normalizeDomain entry = none →
        evaluateCitationLink { citation with allowedDomains := some (before ++ entry :: after) } =
          evaluateCitationLink { citation with allowedDomains := some (before ++ after) }) ∧
    (∀ (entry : Text) (c : Char), c ∈ NOT_IN_DOMAIN →
      c ∈ stripDots (CaseTables.toLowerCase (trim entry)) → normalizeDomain entry = none) ∧
    (∀ (link : VerifiedLinkPartInput) (authoritative : Bool) (href : Text),
      evaluateVerifiedLinkPart link = .allowed authoritative href →
        link.status = .verified ∧ ∃ parsed, PlainHttps link.url href parsed ∧
          normalizeDomain link.hostname = some (CaseTables.toLowerCase parsed.hostname)) := by
  refine ⟨fun _ _ _ h => evaluateCitationLink_allowed h, ?_, fun _ _ => normalizeDomain_none,
    fun _ _ _ h => evaluateVerifiedLinkPart_allowed h⟩
  intro citation before after entry hinvalid
  refine evaluateCitationLink_congr rfl rfl ?_
  unfold CitationLinkInput.listed
  simp [List.filterMap_append, hinvalid]

end Links

/-! ## 4. A host with a dot behind it -/

/-- A parser that knows two URLs. -/
abbrev exampleParser : PageUrlParser where
  parse := fun text =>
    if text = "https://example.com".toList then
      some ⟨⟨"https://example.com/".toList, "https:".toList, [], [], "example.com".toList, [], []⟩,
        ['/']⟩
    else if text = "https://example.com./".toList then
      some ⟨⟨"https://example.com./".toList, "https:".toList, [], [], "example.com.".toList, [],
        []⟩, ['/']⟩
    else none

theorem links_confined_example :
    let _ : CaseTables := ⟨List.map Char.toLower⟩
    let _ : PageUrlParser := exampleParser
    ∃ parsed, PlainHttps "https://example.com".toList "https://example.com/".toList parsed ∧
      ∃ entry ∈ [" .Example.com".toList], ∃ domain, normalizeDomain entry = some domain ∧
        Below (stripDots (CaseTables.toLowerCase parsed.hostname)) domain := by
  intro _ _
  have hallowed : evaluateCitationLink
      ⟨"https://example.com".toList, some .reference, some [" .Example.com".toList]⟩ =
        .allowed false "https://example.com/".toList := by
    decide +kernel
  exact links_confined.1 _ _ _ hallowed

/-- `example.com.` is allowed where `example.com` is listed. -/
theorem trailing_dot_allowed :
    ¬ ∀ [CaseTables] [PageUrlParser] (citation : CitationLinkInput) (authoritative : Bool)
      (href : Text), evaluateCitationLink citation = .allowed authoritative href →
        ∃ parsed, PageUrlParser.parse citation.url = some parsed ∧
          ∃ entry ∈ citation.listed, ∃ domain, normalizeDomain entry = some domain ∧
            Below parsed.hostname domain := by
  intro h
  let _ : CaseTables := ⟨List.map Char.toLower⟩
  let _ : PageUrlParser := exampleParser
  have hallowed : evaluateCitationLink
      ⟨"https://example.com./".toList, some .reference, some ["example.com".toList]⟩ =
        .allowed false "https://example.com./".toList := by
    decide +kernel
  obtain ⟨parsed, hparsed, entry, hentry, domain, hdomain, hbelow⟩ := h _ _ _ hallowed
  have hhost : parsed.hostname = "example.com.".toList := by
    have hknown : PageUrlParser.parse "https://example.com./".toList = some parsed := hparsed
    rw [← Option.some.inj hknown]
  have hlisted : entry = "example.com".toList := List.mem_singleton.mp hentry
  have hnormal : normalizeDomain "example.com".toList = some "example.com".toList := by
    decide +kernel
  rw [hlisted, hnormal] at hdomain
  rw [hhost, ← Option.some.inj hdomain] at hbelow
  have htwelve : "example.com.".toList.length = 12 ∧ "example.com".toList.length = 11 := by decide
  rcases hbelow with heq | ⟨label, hne, heq⟩
  · have hlength := congrArg List.length heq
    omega
  · have hlength := congrArg List.length heq
    have hpos : 0 < label.length := List.length_pos_iff.mpr hne
    rw [List.length_append, List.length_cons] at hlength
    omega

end OpenVac.CitationLinks
