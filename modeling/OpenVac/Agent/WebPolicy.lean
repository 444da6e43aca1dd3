/-
  File:      OpenVac/Agent/WebPolicy.lean
  Subject:   Which domain policy governs a URL, and which URLs become web evidence.

  * `usableDomains` -- the built-in domains and those of the enabled rows of tier A and B, in table
    order; `policyForUrl_eq` -- the policy found is that of the first one that matches the host.
  * `admitted_matches` -- what a search adds has a matching usable domain.
  * `MostSpecificFirst`, `precedence_iff` -- when the governing policy is the most specific one and
    a URL under a refused row is never admitted.
  * `refused_row_admitted` -- a disabled row for a built-in domain does not refuse it.
-/
import OpenVac.Agent.WebEvidence

namespace OpenVac.Agent

open JsString JsRegex JsUrl Chat ChatV3

/-! ## 1. The first match of a list with repetitions -/

theorem find?_append_mem {α : Type} {l : List α} {a : α} (h : a ∈ l) (p : α → Bool) :
    (l ++ [a]).find? p = l.find? p := by
  rw [List.find?_append]
  cases hl : l.find? p with
  | some b => rfl
  | none =>
    have ha := List.find?_eq_none.mp hl a h
    simp [ha]

/-- The table holds exactly these domains, each where it first occurs. -/
def Lists (table : List WebDomainPolicy) (domains : List Text) : Prop :=
  (∀ d, d ∈ table.map (·.domain) ↔ d ∈ domains) ∧
    ∀ p : Text → Bool, (table.map (·.domain)).find? p = domains.find? p

theorem setPolicy_domains (table : List WebDomainPolicy) (policy : WebDomainPolicy) :
    (setPolicy table policy).map (·.domain) =
      if policy.domain ∈ table.map (·.domain) then table.map (·.domain)
      else table.map (·.domain) ++ [policy.domain] := by
  unfold setPolicy
  by_cases h : policy.domain ∈ table.map (·.domain)
  · have hany : (table.any fun entry => entry.domain == policy.domain) = true := by
      obtain ⟨entry, he, heq⟩ := List.mem_map.mp h
      exact List.any_eq_true.mpr ⟨entry, he, beq_iff_eq.mpr heq⟩
    rw [if_pos h, if_pos hany, List.map_map]
    refine List.map_congr_left fun entry _ => ?_
    show (if entry.domain == policy.domain then policy else entry).domain = entry.domain
    by_cases he : (entry.domain == policy.domain) = true
    · rw [if_pos he]
      exact (beq_iff_eq.mp he).symm
    · rw [if_neg he]
  · have hany : ¬ (table.any fun entry => entry.domain == policy.domain) = true := by
      intro hc
      obtain ⟨entry, he, heq⟩ := List.any_eq_true.mp hc
      exact h (List.mem_map.mpr ⟨entry, he, beq_iff_eq.mp heq⟩)
    rw [if_neg h, if_neg hany, List.map_append]
    rfl

theorem Lists.setPolicy {table : List WebDomainPolicy} {domains : List Text}
    (h : Lists table domains) (policy : WebDomainPolicy) :
    Lists (Agent.setPolicy table policy) (domains ++ [policy.domain]) := by
  unfold Lists
  rw [setPolicy_domains]
  by_cases hmem : policy.domain ∈ table.map (·.domain)
  · have hdom : policy.domain ∈ domains := (h.1 _).mp hmem
    rw [if_pos hmem]
    refine ⟨fun d => ?_, fun p => ?_⟩
    · rw [List.mem_append, List.mem_singleton, h.1]
      exact ⟨Or.inl, fun hd => hd.elim (fun hd => hd) (fun e => e ▸ hdom)⟩
    · rw [h.2, find?_append_mem hdom]
  · rw [if_neg hmem]
    refine ⟨fun d => ?_, fun p => ?_⟩
    · rw [List.mem_append, List.mem_append, h.1]
    · rw [List.find?_append, List.find?_append, h.2]

section Urls

variable [UrlParser]

/-- A URL as the parser serializes it that may be a candidate. -/
def Discoverable (url : Text) : Prop :=
  ∃ parsed, UrlParser.parse url = some parsed ∧ parsed.href = url ∧ '#' ∉ url ∧
    utf16Length url ≤ MAX_DISCOVERY_URL_CHARACTERS ∧ plainHttps parsed = true ∧
    hasSensitiveUrlParameters parsed = false

theorem Discoverable.parsePublic {url : Text} (hd : Discoverable url) :
    ∃ parsed : Url, parsePublicHttpsUrl url = some parsed ∧ parsed.href = url ∧
      utf16Length url ≤ MAX_DISCOVERY_URL_CHARACTERS := by
  obtain ⟨parsed, hparse, rfl, hhash, hlen, hplain, hsens⟩ := hd
  refine ⟨parsed, ?_, rfl, hlen⟩
  unfold parsePublicHttpsUrl
  rw [hparse]
  dsimp only
  rw [if_neg, Url.withoutHash_of_not_mem hhash]
  rintro (h | h | h)
  · unfold MAX_PUBLIC_URL_CHARACTERS at h
    unfold MAX_DISCOVERY_URL_CHARACTERS at hlen
    omega
  · exact absurd (hplain.symm.trans h) Bool.noConfusion
  · exact absurd (hsens.symm.trans h) Bool.noConfusion

end Urls

section Policies

variable [CaseTables]

/-- An enabled row of tier A or B. -/
def DomainPolicyRow.usable (row : DomainPolicyRow) : Bool :=
  row.enabled && isAllowedFinalTier row.trustTier

def DomainPolicyRow.lowered (row : DomainPolicyRow) : Text := CaseTables.toLowerCase row.domain

/-- The domains of the effective table, in its order but with repetitions. -/
def usableDomains (configured : List DomainPolicyRow) : List Text :=
  defaultTierADomains ++ (configured.filter (·.usable)).map (·.lowered)

theorem lists_loadDomainPolicies (configured : List DomainPolicyRow) :
    Lists (loadDomainPolicies configured) (usableDomains configured) := by
  have hrun : ∀ (rows : List DomainPolicyRow) (table : List WebDomainPolicy) (domains : List Text),
      Lists table domains → Lists ((rows.filter (·.enabled)).foldl loadPolicy table)
        (domains ++ (rows.filter (·.usable)).map (·.lowered)) := by
    intro rows
    induction rows with
    | nil =>
      intro table domains h
      simpa using h
    | cons row rest ih =>
      intro table domains h
      by_cases hen : row.enabled = true
      · by_cases htier : isAllowedFinalTier row.trustTier = true
        · have hu : row.usable = true := by
            unfold DomainPolicyRow.usable
            rw [hen, htier]
            rfl
          have hstep := ih (loadPolicy table row) (domains ++ [row.lowered]) (by
            unfold loadPolicy
            rw [if_pos htier]
            exact h.setPolicy _)
          rw [List.filter_cons_of_pos hen, List.filter_cons_of_pos hu, List.foldl_cons]
          simpa using hstep
        · have hu : ¬ row.usable = true := by
            unfold DomainPolicyRow.usable
            rw [hen]
            simpa using htier
          have hstep := ih (loadPolicy table row) domains (by
            unfold loadPolicy
            rw [if_neg htier]
            exact h)
          rw [List.filter_cons_of_pos hen, List.filter_cons_of_neg hu, List.foldl_cons]
          exact hstep
      · have hu : ¬ row.usable = true := by
          unfold DomainPolicyRow.usable
          simp [hen]
        rw [List.filter_cons_of_neg hen, List.filter_cons_of_neg hu]
        exact ih table domains h
  refine hrun configured defaultPolicies defaultTierADomains ?_
  have hdom : defaultPolicies.map (·.domain) = defaultTierADomains := by
    unfold defaultPolicies
    rw [List.map_map]
    exact List.map_id _
  exact ⟨fun d => by rw [hdom], fun p => by rw [hdom]⟩

/-- Every entry of the effective table is of tier A or B. -/
theorem loadDomainPolicies_tier (configured : List DomainPolicyRow) :
    ∀ policy ∈ loadDomainPolicies configured, isAllowedFinalTier policy.trustTier = true := by
  have hset : ∀ (table : List WebDomainPolicy) (policy : WebDomainPolicy),
      (∀ p ∈ table, isAllowedFinalTier p.trustTier = true) →
      isAllowedFinalTier policy.trustTier = true →
      ∀ p ∈ setPolicy table policy, isAllowedFinalTier p.trustTier = true := by
    intro table policy ht hp p hmem
    unfold setPolicy at hmem
    split at hmem
    · obtain ⟨entry, he, rfl⟩ := List.mem_map.mp hmem
      split
      · exact hp
      · exact ht entry he
    · rcases List.mem_append.mp hmem with hmem | hmem
      · exact ht p hmem
      · obtain rfl := List.mem_singleton.mp hmem
        exact hp
  have hrun : ∀ (rows : List DomainPolicyRow) (table : List WebDomainPolicy),
      (∀ p ∈ table, isAllowedFinalTier p.trustTier = true) →
      ∀ p ∈ rows.foldl loadPolicy table, isAllowedFinalTier p.trustTier = true := by
    intro rows
    induction rows with
    | nil => exact fun table ht => ht
    | cons row rest ih =>
      intro table ht
      refine ih (loadPolicy table row) ?_
      unfold loadPolicy
      by_cases htier : isAllowedFinalTier row.trustTier = true
      · rw [if_pos htier]
        exact hset table _ ht htier
      · rw [if_neg htier]
        exact ht
  refine hrun _ _ ?_
  intro p hp
  obtain ⟨domain, -, rfl⟩ := List.mem_map.mp hp
  rfl

/-! ## 2. The governing policy -/

/-- The usable domains that match a host, the one that governs it first. -/
def matchingDomains (configured : List DomainPolicyRow) (hostname : Text) : List Text :=
  (usableDomains configured).filter (withinDomain hostname)

/-- A most specific row that matches the host is disabled or of another tier. -/
def Refused (configured : List DomainPolicyRow) (hostname : Text) : Prop :=
  ∃ row ∈ configured, withinDomain hostname row.lowered = true ∧ row.usable = false ∧
    ∀ other ∈ configured, withinDomain hostname other.lowered = true →
      other.lowered.length ≤ row.lowered.length

/-- The first matching usable domain is a longest one, and a refused host has none. -/
def MostSpecificFirst (configured : List DomainPolicyRow) (hostname : Text) : Prop :=
  (∀ first, (matchingDomains configured hostname).head? = some first →
    ∀ domain ∈ matchingDomains configured hostname, domain.length ≤ first.length) ∧
  (Refused configured hostname → matchingDomains configured hostname = [])

theorem mem_matchingDomains_iff {configured : List DomainPolicyRow} {hostname domain : Text} :
    domain ∈ matchingDomains configured hostname ↔
      domain ∈ (loadDomainPolicies configured).map (·.domain) ∧
        withinDomain hostname domain = true := by
  unfold matchingDomains
  rw [List.mem_filter, (lists_loadDomainPolicies configured).1]

variable [UrlParser]

/-- The host of a URL that the lookup accepts. -/
def governedHost (url : Text) : Option Text :=
  match UrlParser.parse url with
  | none => none
  | some parsed =>
      if plainHttps parsed then some (CaseTables.toLowerCase parsed.hostname) else none

theorem policyForUrl_eq (configured : List DomainPolicyRow) (url : Text) :
    (policyForUrl url (loadDomainPolicies configured)).map (·.domain) =
      (governedHost url).bind fun hostname => (matchingDomains configured hostname).head? := by
  unfold policyForUrl governedHost
  cases hp : UrlParser.parse url with
  | none => rfl
  | some parsed =>
    by_cases hh : plainHttps parsed = true
    · simp only [hh, Bool.not_true, Bool.false_eq_true, if_false, if_true, Option.bind_some]
      unfold matchingDomains
      rw [List.head?_filter, ← (lists_loadDomainPolicies configured).2, List.find?_map]
      rfl
    · simp [hh]

theorem policyForUrl_mem {url : Text} {policies : List WebDomainPolicy} {policy : WebDomainPolicy}
    (h : policyForUrl url policies = some policy) : policy ∈ policies := by
  unfold policyForUrl at h
  split at h
  · nomatch h
  · split at h
    · nomatch h
    · exact List.mem_of_find?_eq_some h

/-- The policy found governs the URL also when it is the only one. -/
theorem policyForUrl_self {url : Text} {policies : List WebDomainPolicy} {policy : WebDomainPolicy}
    (h : policyForUrl url policies = some policy) : policyForUrl url [policy] = some policy := by
  unfold policyForUrl at h ⊢
  cases hp : UrlParser.parse url with
  | none =>
    rw [hp] at h
    nomatch h
  | some parsed =>
    rw [hp] at h
    dsimp only at h ⊢
    by_cases hh : plainHttps parsed = true
    · rw [hh, Bool.not_true, if_neg Bool.false_ne_true] at h ⊢
      have hin := List.find?_some h
      exact List.find?_cons_of_pos hin
    · simp [hh] at h

theorem policyForUrl_single {url : Text} {candidate policy : WebDomainPolicy}
    (h : policyForUrl url [candidate] = some policy) :
    policy = candidate ∧ ∃ hostname, governedHost url = some hostname ∧
      withinDomain hostname candidate.domain = true := by
  unfold policyForUrl at h
  unfold governedHost
  cases hp : UrlParser.parse url with
  | none =>
    rw [hp] at h
    nomatch h
  | some parsed =>
    rw [hp] at h
    dsimp only at h
    by_cases hh : plainHttps parsed = true
    · rw [hh, Bool.not_true, if_neg Bool.false_ne_true] at h
      obtain rfl := List.mem_singleton.mp (List.mem_of_find?_eq_some h)
      have hin := List.find?_some h
      exact ⟨rfl, _, if_pos hh, hin⟩
    · simp [hh] at h

/-- The governing policy is a longest one exactly if the first matching domain is. -/
theorem most_specific_iff {configured : List DomainPolicyRow} {url hostname : Text}
    (hhost : governedHost url = some hostname) :
    (∀ policy, policyForUrl url (loadDomainPolicies configured) = some policy →
      ∀ other ∈ loadDomainPolicies configured, withinDomain hostname other.domain = true →
        other.domain.length ≤ policy.domain.length) ↔
    ∀ first, (matchingDomains configured hostname).head? = some first →
      ∀ domain ∈ matchingDomains configured hostname, domain.length ≤ first.length := by
  have heq := policyForUrl_eq configured url
  rw [hhost] at heq
  constructor
  · intro h first hfirst domain hdomain
    rw [Option.bind_some, hfirst] at heq
    obtain ⟨policy, hpolicy, rfl⟩ := Option.map_eq_some_iff.mp heq
    obtain ⟨hin, hwithin⟩ := mem_matchingDomains_iff.mp hdomain
    obtain ⟨other, hother, rfl⟩ := List.mem_map.mp hin
    exact h policy hpolicy other hother hwithin
  · intro h policy hpolicy other hother hwithin
    rw [hpolicy] at heq
    exact h policy.domain heq.symm other.domain
      (mem_matchingDomains_iff.mpr ⟨List.mem_map_of_mem hother, hwithin⟩)

/-- Adding evidence leaves the other entries and appends at most its own. -/
theorem mem_add {registry : EvidenceRegistry} {evidence : GroundingEvidence}
    {policy : EvidencePolicy} {entry : RegisteredEvidence}
    (h : entry ∈ (EvidenceRegistry.add registry evidence policy).2) :
    entry ∈ registry ∨ entry.evidence = evidence := by
  unfold EvidenceRegistry.add at h
  dsimp only at h
  split at h
  · exact Or.inl h
  · split at h
    · exact Or.inl h
    · rcases List.mem_append.mp h with h | h
      · exact Or.inl h
      · obtain rfl := List.mem_singleton.mp h
        exact Or.inr rfl

end Policies

theorem mem_bindVerifiedLink {registry : EvidenceRegistry} {id linkId hostname : Text}
    {entry : RegisteredEvidence}
    (h : entry ∈ EvidenceRegistry.bindVerifiedLink registry id linkId hostname) :
    ∃ old ∈ registry, old.evidence = entry.evidence := by
  obtain ⟨old, hold, rfl⟩ := List.mem_map.mp h
  refine ⟨old, hold, ?_⟩
  split <;> rfl

/-! ## 3. What a search admits -/

theorem readable_page : ∃ body : Text, 80 ≤ utf16Length (htmlToPlainText body) := by
  refine ⟨List.replicate 80 'a', ?_⟩
  decide +kernel


theorem sanitizedPage_url [UnicodeTables] [UrlParser] [Sha256] (title : Text) (publicUrl : Url) (license : LicenseClass)
    (fetchedAt : Int) (excerpt : Text) :
    (sanitizedPage title publicUrl license fetchedAt excerpt).citation.url = publicUrl.href := by
  unfold sanitizedPage
  dsimp only
  rw [sanitizeGroundingEvidence_url]

section Host

variable [UnicodeTables] [CaseTables] [UrlParser]

/-- A candidate that passes carries the policy of its URL. -/
theorem governCandidate_policy {policies : List WebDomainPolicy} {seen : List Text}
    {candidate : WebCandidate} {governed : GovernedCandidate}
    (h : governCandidate policies seen candidate = some governed) : governed.policy ∈ policies := by
  unfold governCandidate at h
  split at h
  · nomatch h
  · split at h
    · nomatch h
    · split at h
      · nomatch h
      · obtain ⟨policy, hp, rfl⟩ := Option.map_eq_some_iff.mp h
        exact policyForUrl_mem hp

theorem governFrom_policy {policies : List WebDomainPolicy} (candidates : List WebCandidate)
    {accepted : List GovernedCandidate} (h : ∀ g ∈ accepted, g.policy ∈ policies) :
    ∀ g ∈ governFrom policies accepted candidates, g.policy ∈ policies := by
  induction candidates generalizing accepted with
  | nil => exact h
  | cons candidate rest ih =>
    unfold governFrom
    cases hg : governCandidate policies (accepted.map (·.url)) candidate with
    | none => exact ih h
    | some governed =>
      have hmore : ∀ g ∈ accepted ++ [governed], g.policy ∈ policies := by
        intro g hmem
        rcases List.mem_append.mp hmem with hmem | hmem
        · exact h g hmem
        · obtain rfl := List.mem_singleton.mp hmem
          exact governCandidate_policy hg
      dsimp only
      split
      · exact hmore
      · exact ih hmore

variable [Sha256]

omit [Sha256] in
/-- A discoverable URL is accepted with its policy. -/
theorem governCandidates_one {policies : List WebDomainPolicy} {url : Text} {policy : WebDomainPolicy}
    (hd : Discoverable url) (hp : policyForUrl url policies = some policy) :
    ∃ governed : GovernedCandidate, governed.policy = policy ∧
      governCandidates [{ url := url, title := [], summary := [] }] policies = [governed] := by
  obtain ⟨parsed, hpublic, hhref, hlen⟩ := hd.parsePublic
  have hcandidate : ∃ governed : GovernedCandidate, governed.policy = policy ∧
      governCandidate policies [] { url := url, title := [], summary := [] } = some governed := by
    unfold governCandidate
    dsimp only
    rw [if_neg (Nat.not_lt.mpr hlen), hpublic]
    dsimp only
    rw [hhref, if_neg, hp]
    · exact ⟨_, rfl, rfl⟩
    · rintro (h | h)
      · exact absurd h (Nat.not_lt.mpr hlen)
      · nomatch h
  obtain ⟨governed, hpol, hg⟩ := hcandidate
  refine ⟨governed, hpol, ?_⟩
  unfold governCandidates governFrom
  rw [List.map_nil, hg]
  rfl

/-- A page of a governed URL that has text is evidence. -/
theorem pageEvidence_of {governed : GovernedCandidate} {url body : Text}
    (hd : Discoverable url) (hp : policyForUrl url [governed.policy] = some governed.policy)
    (hbody : 80 ≤ utf16Length (htmlToPlainText body)) :
    ∃ evidence parsed, pageEvidence governed { url := url, body := body, fetchedAt := 0 } =
      some (evidence, governed.policy, parsed) ∧ parsed.href = url := by
  obtain ⟨parsed, hpublic, hhref, -⟩ := hd.parsePublic
  refine ⟨sanitizedPage governed.title parsed governed.policy.licenseClass 0 (htmlToPlainText body),
    parsed, ?_, hhref⟩
  unfold pageEvidence
  rw [hpublic, Option.bind_eq_bind, Option.bind_some, hhref, hp]
  dsimp only [Option.bind_eq_bind, Option.bind_some]
  rw [if_neg (Nat.not_lt.mpr hbody)]
  rfl

/-- The evidence of a page lies on a host that the candidate's domain matches. -/
theorem pageEvidence_spec {candidate : GovernedCandidate} {page : Page}
    {evidence : GroundingEvidence} {policy : WebDomainPolicy} {url : Url}
    (h : pageEvidence candidate page = some (evidence, policy, url)) :
    evidence.citation.url = url.href ∧ policy = candidate.policy ∧
      ∃ hostname, governedHost url.href = some hostname ∧
        withinDomain hostname candidate.policy.domain = true := by
  unfold pageEvidence at h
  obtain ⟨publicUrl, hurl, h⟩ := Option.bind_eq_some_iff.mp h
  obtain ⟨finalPolicy, hpol, h⟩ := Option.bind_eq_some_iff.mp h
  dsimp only at h
  split at h
  · nomatch h
  · obtain ⟨hev, h⟩ := Prod.mk.inj (Option.some.inj h)
    obtain ⟨rfl, rfl⟩ := Prod.mk.inj h
    obtain ⟨rfl, hostname, hhost, hin⟩ := policyForUrl_single hpol
    refine ⟨?_, rfl, hostname, hhost, hin⟩
    rw [← hev, sanitizedPage_url]

omit [UnicodeTables] [Sha256] in
/-- Evidence of an allowed tier enters an empty registry. -/
theorem add_first (evidence : GroundingEvidence) {tier : SourceTrustTier}
    (h : isAllowedFinalTier tier = true) :
    ∃ id added, EvidenceRegistry.add [] evidence
      { trustTier := some tier, reviewStatus := some .runtime_verified, runtimeValidated := true } =
        (some id, added) := by
  unfold EvidenceRegistry.add
  dsimp only [Option.getD_some]
  rw [if_neg]
  · exact ⟨_, _, rfl⟩
  · rintro (e | e)
    · rw [e] at h
      nomatch h
    · rw [e] at h
      nomatch h

/-- The URL is new evidence or a verified link after some search over the configured rows. -/
def Admitted (configured : List DomainPolicyRow) (url : Text) : Prop :=
  ∃ (fetch : GovernedCandidate → Option Page) (registry : EvidenceRegistry)
    (candidates : List WebCandidate),
    let after := fetchCandidates fetch registry
      (governCandidates candidates (loadDomainPolicies configured))
    (∃ entry ∈ after.registry, entry.evidence.citation.url = url ∧
      ∀ old ∈ registry, old.evidence ≠ entry.evidence) ∨
    ∃ link ∈ after.verifiedLinks, link.url = url

/-- The host of the URL matches one of the usable domains. -/
def HasUsableDomain (configured : List DomainPolicyRow) (url : Text) : Prop :=
  ∃ hostname, governedHost url = some hostname ∧ matchingDomains configured hostname ≠ []

/-- What a search has added so far lies under usable domains. -/
structure OnlyUsable (configured : List DomainPolicyRow) (registry : EvidenceRegistry)
    (state : FetchState) : Prop where
  entries : ∀ entry ∈ state.registry, (∃ old ∈ registry, old.evidence = entry.evidence) ∨
    HasUsableDomain configured entry.evidence.citation.url
  links : ∀ link ∈ state.verifiedLinks, HasUsableDomain configured link.url

theorem fetchCandidate_onlyUsable {configured : List DomainPolicyRow} {registry : EvidenceRegistry}
    {fetch : GovernedCandidate → Option Page} {state : FetchState} {candidate : GovernedCandidate}
    (hs : OnlyUsable configured registry state)
    (hpol : candidate.policy ∈ loadDomainPolicies configured) :
    OnlyUsable configured registry (fetchCandidate fetch state candidate) := by
  unfold fetchCandidate
  cases hf : (fetch candidate).bind (pageEvidence candidate) with
  | none => exact hs
  | some found =>
    obtain ⟨evidence, finalPolicy, publicUrl⟩ := found
    obtain ⟨page, -, hpage⟩ := Option.bind_eq_some_iff.mp hf
    obtain ⟨hurl, -, hostname, hhost, hin⟩ := pageEvidence_spec hpage
    have hdomain : candidate.policy.domain ∈ usableDomains configured :=
      ((lists_loadDomainPolicies configured).1 _).mp (List.mem_map_of_mem hpol)
    have husable : HasUsableDomain configured publicUrl.href :=
      ⟨hostname, hhost, List.ne_nil_of_mem (List.mem_filter.mpr ⟨hdomain, hin⟩)⟩
    dsimp only
    cases ha : EvidenceRegistry.add state.registry evidence
        { trustTier := some finalPolicy.trustTier
          reviewStatus := some .runtime_verified
          runtimeValidated := true } with
    | mk id added =>
      have hentries : ∀ entry ∈ added, (∃ old ∈ registry, old.evidence = entry.evidence) ∨
          HasUsableDomain configured entry.evidence.citation.url := by
        intro entry he
        have hadded : entry ∈ (EvidenceRegistry.add state.registry evidence
            { trustTier := some finalPolicy.trustTier
              reviewStatus := some .runtime_verified
              runtimeValidated := true }).2 := by
          rw [ha]
          exact he
        rcases mem_add hadded with hold | hnew
        · exact hs.entries entry hold
        · rw [hnew, hurl]
          exact Or.inr husable
      cases id with
      | none => exact ⟨hentries, hs.links⟩
      | some id =>
        dsimp only
        by_cases hc : state.evidenceIds.contains id = true
        · rw [if_pos hc]
          exact ⟨hentries, hs.links⟩
        · rw [if_neg hc]
          refine ⟨fun entry he => ?_, fun link hl => ?_⟩
          · obtain ⟨old, hold, hev⟩ := mem_bindVerifiedLink he
            rw [← hev]
            exact hentries old hold
          · rcases List.mem_append.mp hl with hl | hl
            · exact hs.links link hl
            · obtain rfl := List.mem_singleton.mp hl
              exact husable

/-- **Whatever a search admits lies under a usable domain.** -/
theorem admitted_matches {configured : List DomainPolicyRow} {url : Text}
    (h : Admitted configured url) : HasUsableDomain configured url := by
  obtain ⟨fetch, registry, candidates, h⟩ := h
  have hgoverned : ∀ g ∈ governCandidates candidates (loadDomainPolicies configured),
      g.policy ∈ loadDomainPolicies configured :=
    governFrom_policy candidates fun g hg => absurd hg List.not_mem_nil
  have hrun : ∀ (governed : List GovernedCandidate) (state : FetchState),
      (∀ g ∈ governed, g.policy ∈ loadDomainPolicies configured) →
      OnlyUsable configured registry state →
      OnlyUsable configured registry (governed.foldl (fetchCandidate fetch) state) := by
    intro governed
    induction governed with
    | nil => exact fun state _ hs => hs
    | cons g rest ih =>
      intro state hg hs
      exact ih _ (fun g' hg' => hg g' (List.mem_cons_of_mem _ hg'))
        (fetchCandidate_onlyUsable hs (hg g List.mem_cons_self))
  have hfinal : OnlyUsable configured registry (fetchCandidates fetch registry
      (governCandidates candidates (loadDomainPolicies configured))) := by
    refine hrun _ _ (fun g hg => hgoverned g (List.mem_of_mem_take hg)) ⟨fun entry he => ?_, ?_⟩
    · exact Or.inl ⟨entry, he, rfl⟩
    · exact fun link hl => absurd hl List.not_mem_nil
  rcases h with ⟨entry, he, rfl, hnew⟩ | ⟨link, hl, rfl⟩
  · rcases hfinal.entries entry he with ⟨old, hold, hev⟩ | husable
    · exact absurd hev (hnew old hold)
    · exact husable
  · exact hfinal.links link hl

/-! ## 4. Precedence -/

/-- The most specific matching policy governs the URL, and a refused URL is not admitted. -/
structure Precedence (configured : List DomainPolicyRow) (url : Text) : Prop where
  most_specific : ∀ hostname policy, governedHost url = some hostname →
    policyForUrl url (loadDomainPolicies configured) = some policy →
    ∀ other ∈ loadDomainPolicies configured, withinDomain hostname other.domain = true →
      other.domain.length ≤ policy.domain.length
  refused : ∀ hostname, governedHost url = some hostname → Refused configured hostname →
    ¬ Admitted configured url

/-- A discoverable URL with a usable domain is admitted by some search. -/
theorem admitted_of_matches {configured : List DomainPolicyRow} {url hostname : Text}
    (hd : Discoverable url) (hhost : governedHost url = some hostname)
    (hmatch : matchingDomains configured hostname ≠ []) : Admitted configured url := by
  have heq := policyForUrl_eq configured url
  rw [hhost, Option.bind_some, List.head?_eq_some_head hmatch] at heq
  obtain ⟨policy, hpolicy, -⟩ := Option.map_eq_some_iff.mp heq
  obtain ⟨governed, rfl, hgoverned⟩ := governCandidates_one hd hpolicy
  obtain ⟨body, hbody⟩ := readable_page
  obtain ⟨evidence, parsed, hpage, hhref⟩ :=
    pageEvidence_of hd (policyForUrl_self hpolicy) hbody
  have htier := loadDomainPolicies_tier configured _ (policyForUrl_mem hpolicy)
  refine ⟨fun _ => some { url := url, body := body, fetchedAt := 0 }, [],
    [{ url := url, title := [], summary := [] }], Or.inr ?_⟩
  rw [hgoverned]
  show ∃ link ∈ (fetchCandidate (fun _ => some { url := url, body := body, fetchedAt := 0 })
    { registry := [], evidenceIds := [], verifiedLinks := [] } governed).verifiedLinks,
    link.url = url
  unfold fetchCandidate
  rw [Option.bind_some, hpage]
  dsimp only
  obtain ⟨id, added, hadd⟩ := add_first evidence htier
  rw [hadd]
  exact ⟨_, List.mem_singleton_self _, hhref⟩

/-- **The precedence of the rows**: where the first usable domain that matches is a longest one and
    a refused host has none, the most specific policy governs and a refused URL is not admitted;
    for a URL that may be a candidate this is also necessary. -/
theorem precedence_iff (configured : List DomainPolicyRow) (url : Text) :
    ((∀ hostname, governedHost url = some hostname → MostSpecificFirst configured hostname) →
      Precedence configured url) ∧
    (Discoverable url → Precedence configured url →
      ∀ hostname, governedHost url = some hostname → MostSpecificFirst configured hostname) := by
  constructor
  · intro h
    refine ⟨fun hostname policy hhost hpolicy =>
      (most_specific_iff hhost).mpr (h hostname hhost).1 policy hpolicy, ?_⟩
    intro hostname hhost hrefused hadmitted
    obtain ⟨hostname', hhost', hmatch⟩ := admitted_matches hadmitted
    obtain rfl := Option.some.inj (hhost.symm.trans hhost')
    exact hmatch ((h hostname hhost).2 hrefused)
  · intro hd hprec hostname hhost
    refine ⟨(most_specific_iff hhost).mp fun policy => hprec.most_specific hostname policy hhost, ?_⟩
    intro hrefused
    by_contra hmatch
    exact hprec.refused hostname hhost hrefused (admitted_of_matches hd hhost hmatch)

end Host

/-! ## 5. A disabled row for a built-in domain -/

@[reducible] def sameCase : CaseTables := ⟨fun text => text⟩

/-- A parser that knows one address. -/
@[reducible] def nistParser : UrlParser :=
  ⟨fun text =>
    if text = "https://nist.gov/".toList then
      some
        { href := "https://nist.gov/".toList, protocol := "https:".toList, username := []
          password := [], hostname := "nist.gov".toList, port := [], searchKeys := [] }
    else none⟩

def disabledNist : DomainPolicyRow :=
  { domain := "nist.gov".toList, trustTier := .tier_a, licenseClass := "public_domain".toList
    enabled := false }

/-- The row is filtered before the table is merged, so the built-in entry stays. -/
theorem refused_row_admitted :
    ¬ ∀ [UnicodeTables] [CaseTables] [UrlParser] [Sha256] (configured : List DomainPolicyRow)
      (url : Text), Precedence configured url := by
  intro h
  let : UnicodeTables := ⟨fun text => text, fun text => text⟩
  let : CaseTables := sameCase
  let : UrlParser := nistParser
  let : Sha256 := ⟨fun text => text⟩
  have hprec := h [disabledNist] "https://nist.gov/".toList
  have hhost : governedHost "https://nist.gov/".toList = some "nist.gov".toList := by
    decide +kernel
  have hrefused : Refused [disabledNist] "nist.gov".toList := by
    refine ⟨disabledNist, List.mem_singleton_self _, by decide +kernel, rfl, ?_⟩
    intro other hother _
    obtain rfl := List.mem_singleton.mp hother
    exact Nat.le_refl _
  have hdiscoverable : Discoverable "https://nist.gov/".toList :=
    ⟨_, if_pos rfl, rfl, by decide +kernel, by decide +kernel, by decide +kernel,
      by decide +kernel⟩
  exact hprec.refused _ hhost hrefused
    (admitted_of_matches hdiscoverable hhost (by decide +kernel))

end OpenVac.Agent
