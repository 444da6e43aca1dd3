/-
  File:      OpenVac/Knowledge/FetchConfinement.lean
  Subject:   Where the fetcher's connections go.

  * `validateFetchUrl_ok` -- what a validated URL satisfies.
  * `Confined` -- a connection over https to a whitelisted host, at an address that was checked for
    its own hop and that is public.
  * `fetch_confined` -- every connection is confined, and there is at most one more than redirects.
-/
import OpenVac.Knowledge.WebFetch

namespace OpenVac.Knowledge

open JsString JsUrl

section Names

variable [NetAddress]

/-- What holds of names outside this program: a name in brackets is no address text and has no DNS
    entry. -/
structure Network.NamesBare (network : Network) : Prop where
  not_address : ∀ name : Text, name.head? = some '[' → NetAddress.isIP name = 0
  no_entry : ∀ hop (name : Text), name.head? = some '[' → network.dns hop name = none

/-- The connection goes to the first checked address: a literal host has been checked itself. -/
theorem connectTarget_checked {network : Network} (hnames : network.NamesBare) {hop : Nat} {url : Url}
    {selected : ResolvedAddress} {rest : List ResolvedAddress}
    (h : defaultResolver network hop url.hostname = some (selected :: rest)) :
    connectTarget url (createPinnedLookup selected) = selected := by
  have hbare : url.hostname.head? ≠ some '[' := by
    intro hb
    unfold defaultResolver at h
    rw [if_neg (not_not.mpr (hnames.not_address _ hb)), hnames.no_entry hop _ hb] at h
    nomatch h
  have hhost : requestHost url.hostname = url.hostname := if_neg hbare
  unfold connectTarget
  dsimp only
  rw [hhost]
  unfold defaultResolver at h
  by_cases hip : NetAddress.isIP url.hostname ≠ 0
  · rw [if_pos hip] at h ⊢
    exact (List.cons.inj (Option.some.inj h)).1
  · rw [if_neg hip]
    rfl

theorem assertSafeResolvedAddresses_ok [CaseTables] {addresses : List ResolvedAddress}
    (h : assertSafeResolvedAddresses addresses = .ok ()) :
    ∀ a ∈ addresses, PublicAddress a.address ∧ NetAddress.isIP a.address = a.family := by
  unfold assertSafeResolvedAddresses at h
  split at h
  · nomatch h
  · split at h
    · nomatch h
    · next hany =>
      intro a ha
      have hsafe := fun hbad => hany (List.any_eq_true.mpr ⟨a, ha, hbad⟩)
      simp only [Bool.or_eq_true, Bool.not_eq_true', bne_iff_ne] at hsafe
      exact ⟨isPublicIpAddress_spec ((Bool.not_eq_false _).mp fun hno => hsafe (Or.inr hno)),
        not_not.mp fun hne => hsafe (Or.inl (Or.inr hne))⟩

end Names

section Host

variable [CaseTables] [UrlParser]

/-- https on the default port, without credentials, on a host of the whitelist. -/
structure Permitted (domains : List Text) (url : Url) : Prop where
  https : url.protocol = "https:".toList
  username : url.username = []
  password : url.password = []
  port : url.port = [] ∨ url.port = "443".toList
  host : ∃ domain ∈ normalizeDomains domains, normalizeDomain url.hostname = domain ∨
    '.' :: domain <:+ normalizeDomain url.hostname

theorem hostnameAllowed_iff {hostname : Text} {domains : List Text} :
    hostnameAllowed hostname domains = true ↔ ∃ domain ∈ domains,
      normalizeDomain hostname = domain ∨ '.' :: domain <:+ normalizeDomain hostname := by
  unfold hostnameAllowed
  simp only [List.any_eq_true, Bool.or_eq_true, beq_iff_eq, decide_eq_true_eq]

/-- **A validated URL is permitted.** -/
theorem validateFetchUrl_ok {input : Text} {domains : List Text} {url : Url}
    (h : validateFetchUrl input domains = .ok url) : Permitted domains url := by
  unfold validateFetchUrl at h
  cases hp : UrlParser.parse input with
  | none =>
    rw [hp] at h
    nomatch h
  | some parsed =>
    rw [hp] at h
    dsimp only at h
    by_cases hlen : 2048 < utf16Length parsed.href
    · rw [if_pos hlen] at h
      nomatch h
    rw [if_neg hlen] at h
    by_cases hhttps : parsed.protocol = "https:".toList
    case neg =>
      rw [if_pos hhttps] at h
      nomatch h
    rw [if_neg (not_not.mpr hhttps)] at h
    by_cases hcred : parsed.username ≠ [] ∨ parsed.password ≠ []
    · rw [if_pos hcred] at h
      nomatch h
    rw [if_neg hcred] at h
    by_cases hport : parsed.port ≠ [] ∧ parsed.port ≠ "443".toList
    · rw [if_pos hport] at h
      nomatch h
    rw [if_neg hport] at h
    by_cases hhost : hostnameAllowed parsed.hostname (normalizeDomains domains) = false
    · rw [if_pos hhost] at h
      nomatch h
    rw [if_neg hhost] at h
    obtain rfl := Except.ok.inj h
    have hallowed := hostnameAllowed_iff.mp ((Bool.not_eq_false _).mp hhost)
    exact {
      https := hhttps
      username := not_not.mp fun hne => hcred (Or.inl hne)
      password := not_not.mp fun hne => hcred (Or.inr hne)
      port := by
        by_cases hempty : parsed.port = []
        · exact Or.inl hempty
        · exact Or.inr (not_not.mp fun hne => hport ⟨hempty, hne⟩)
      host := hallowed }

variable [NetAddress]

/-- A permitted connection to an address that was checked for its own hop, all of them public. -/
structure Confined (domains : List Text) (network : Network) (c : Connection) : Prop where
  permitted : Permitted domains c.url
  resolved : defaultResolver network c.hop c.url.hostname = some c.checked
  target_checked : c.target ∈ c.checked
  public_all : ∀ a ∈ c.checked, PublicAddress a.address ∧ NetAddress.isIP a.address = a.family

variable [UrlResolver]

/-- One hop: no connection, or a confined one that is the last or is followed by the hops of a
    validated redirect. -/
theorem fetchFrom_hop {options : FetcherOptions} {network : Network} (hnames : network.NamesBare)
    (left hop : Nat) (visited : List Text) (current : Url)
    (hcurrent : Permitted options.allowedDomains current) :
    (fetchFrom options network left hop visited current).2 = [] ∨
    ∃ c, Confined options.allowedDomains network c ∧
      ((fetchFrom options network left hop visited current).2 = [c] ∨
        ∃ less next, left = less + 1 ∧ Permitted options.allowedDomains next ∧
          (fetchFrom options network left hop visited current).2 =
            c :: (fetchFrom options network less (hop + 1) (current.href :: visited) next).2) := by
  rw [fetchFrom.eq_def options network left hop visited current]
  by_cases hv : visited.contains current.href = true
  · rw [if_pos hv]
    exact Or.inl rfl
  rw [if_neg hv]
  cases hres : defaultResolver network hop current.hostname with
  | none => exact Or.inl rfl
  | some addresses =>
    dsimp only
    cases hsafe : assertSafeResolvedAddresses addresses with
    | error e => exact Or.inl rfl
    | ok _ =>
      dsimp only
      cases addresses with
      | nil => exact Or.inl rfl
      | cons selected rest =>
        dsimp only
        have htarget := connectTarget_checked hnames hres
        have hconfined : Confined options.allowedDomains network
            { hop := hop, url := current, checked := selected :: rest
              target := connectTarget current (createPinnedLookup selected) } :=
          { permitted := hcurrent
            resolved := hres
            target_checked := by
              rw [htarget]
              exact List.mem_cons_self
            public_all := assertSafeResolvedAddresses_ok hsafe }
        refine Or.inr ⟨_, hconfined, ?_⟩
        cases network.request hop current
            (connectTarget current (createPinnedLookup selected)) with
        | none => exact Or.inl rfl
        | some response =>
          dsimp only
          cases readResponse options.maxBytes response with
          | error e => exact Or.inl rfl
          | ok result =>
            cases result with
            | page status contentType body => exact Or.inl rfl
            | redirect location =>
              cases left with
              | zero => exact Or.inl rfl
              | succ less =>
                dsimp only
                cases UrlResolver.resolve location current with
                | none => exact Or.inl rfl
                | some target =>
                  dsimp only
                  cases hvalid : validateFetchUrl target.href
                      options.allowedDomains with
                  | error e => exact Or.inl rfl
                  | ok next =>
                    exact Or.inr ⟨less, next, rfl, validateFetchUrl_ok hvalid, rfl⟩

/-- The hops from one on: by induction on the redirects that are left. -/
theorem fetchFrom_confined {options : FetcherOptions} {network : Network} (hnames : network.NamesBare)
    (left hop : Nat) (visited : List Text) (current : Url)
    (hcurrent : Permitted options.allowedDomains current) :
    (∀ c ∈ (fetchFrom options network left hop visited current).2,
      Confined options.allowedDomains network c) ∧
    (fetchFrom options network left hop visited current).2.length ≤ left + 1 := by
  induction left generalizing hop visited current with
  | zero =>
    rcases fetchFrom_hop hnames 0 hop visited current hcurrent with h | ⟨c, hc, h | h⟩
    · rw [h]
      exact ⟨fun c hmem => absurd hmem List.not_mem_nil, Nat.zero_le _⟩
    · rw [h]
      exact ⟨fun c' hmem => List.mem_singleton.mp hmem ▸ hc, Nat.le_refl _⟩
    · obtain ⟨less, next, hleft, -⟩ := h
      nomatch hleft
  | succ left ih =>
    rcases fetchFrom_hop hnames (left + 1) hop visited current hcurrent with h | ⟨c, hc, h | h⟩
    · rw [h]
      exact ⟨fun c hmem => absurd hmem List.not_mem_nil, Nat.zero_le _⟩
    · rw [h]
      exact ⟨fun c' hmem => List.mem_singleton.mp hmem ▸ hc, Nat.le_add_left _ _⟩
    · obtain ⟨less, next, hleft, hnext, h⟩ := h
      obtain rfl := Nat.succ.inj hleft
      obtain ⟨hall, hlen⟩ := ih (hop + 1) (current.href :: visited) next hnext
      rw [h]
      refine ⟨fun c' hmem => ?_, Nat.succ_le_succ hlen⟩
      rcases List.mem_cons.mp hmem with rfl | hmem
      · exact hc
      · exact hall c' hmem

/-- **Every connection of a fetch is confined**, whatever the network answers at each hop, and there
    is at most one more of them than redirects are allowed. -/
theorem fetch_confined {network : Network} (hnames : network.NamesBare) (options : FetcherOptions)
    (input : Text) :
    (∀ c ∈ (fetch options network input).2,
      Confined (normalizeDomains options.allowedDomains).eraseDups network c) ∧
    (fetch options network input).2.length ≤ options.maxRedirects + 1 := by
  unfold fetch
  dsimp only
  split
  · exact ⟨fun c hmem => absurd hmem List.not_mem_nil, Nat.zero_le _⟩
  · cases hvalid : validateFetchUrl input (normalizeDomains options.allowedDomains).eraseDups with
    | error e => exact ⟨fun c hmem => absurd hmem List.not_mem_nil, Nat.zero_le _⟩
    | ok current =>
      exact @fetchFrom_confined _ _ _ _
        { options with allowedDomains := (normalizeDomains options.allowedDomains).eraseDups }
        network hnames options.maxRedirects 0 [] current (validateFetchUrl_ok hvalid)

end Host

/-! ## A fetch with one connection -/

def exampleUrl : Url :=
  { href := "https://a.org/".toList, protocol := "https:".toList, username := [], password := []
    hostname := "a.org".toList, port := [], searchKeys := [] }

@[reducible] def exampleCase : CaseTables := ⟨fun text => text⟩

@[reducible] def exampleParser : UrlParser :=
  ⟨fun text => if text = "https://a.org/".toList then some exampleUrl else none⟩

@[reducible] def exampleNet : NetAddress :=
  ⟨fun text => if text = "93.184.215.14".toList then 4 else 0⟩

@[reducible] def exampleResolver : UrlResolver := ⟨fun _ _ => none⟩

/-- Every name that is not in brackets resolves to one public address; nothing answers. -/
def exampleNetwork : Network where
  dns := fun _ name =>
    if name.head? = some '[' then none
    else some [{ address := "93.184.215.14".toList, family := 4 }]
  request := fun _ _ _ => none

theorem exampleNetwork_bare : @Network.NamesBare exampleNet exampleNetwork := by
  refine @Network.NamesBare.mk exampleNet exampleNetwork (fun name hname => ?_)
    (fun _ _ hname => if_pos hname)
  refine if_neg fun e => ?_
  rw [e] at hname
  exact absurd hname (by decide)

/-- The fetch opens a connection, and it is confined. -/
theorem fetch_confined_example :
    ∃ c ∈ (@fetch exampleCase exampleParser exampleNet exampleResolver
        ⟨["a.org".toList], 1000, 2⟩ exampleNetwork "https://a.org/".toList).2,
      @Confined exampleCase exampleParser exampleNet
        (@normalizeDomains exampleCase exampleParser ["a.org".toList]).eraseDups exampleNetwork c := by
  have hall := (@fetch_confined exampleCase exampleParser exampleNet exampleResolver exampleNetwork
    exampleNetwork_bare ⟨["a.org".toList], 1000, 2⟩ "https://a.org/".toList).1
  have hopen : ((@fetch exampleCase exampleParser exampleNet exampleResolver
      ⟨["a.org".toList], 1000, 2⟩ exampleNetwork "https://a.org/".toList).2).length = 1 := by
    decide +kernel
  obtain ⟨c, hc⟩ := List.length_eq_one_iff.mp hopen
  refine ⟨c, ?_, hall c ?_⟩ <;> rw [hc] <;> exact List.mem_singleton_self c

end OpenVac.Knowledge
