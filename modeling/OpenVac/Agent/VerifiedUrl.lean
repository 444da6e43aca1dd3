/-
  File:      OpenVac/Agent/VerifiedUrl.lean
  Subject:   The reader of a turn's own links: the constructor of `VerifiedUrlReader`,
             server/agent/verified-url.ts.

  * `requiredText_of_plain` -- an ASCII text without outer blanks is its own normal form.
  * `addLinks_ok_iff` -- the loop over the links ends well exactly if every link parses and no
    identifier comes twice.
-/
import OpenVac.Agent.WebEvidence
import OpenVac.Lib.JsText

namespace OpenVac.Agent

open JsString JsUrl ChatV3

def MAX_LINKS_PER_TURN : Nat := 16

def MAX_LINK_ID_CHARACTERS : Nat := 160

structure CurrentTurnLink where
  linkId : Text
  url : Text
  label : Option Text
  deriving DecidableEq, Repr

inductive VerifiedUrlErrorCode where
  | INVALID_TURN_LINKS
  | LINK_NOT_ALLOWED
  | TURN_SCOPE_MISMATCH
  | VERIFIED_URL_UNAVAILABLE
  deriving DecidableEq, Repr

structure VerifiedUrlError where
  code : VerifiedUrlErrorCode
  message : String
  deriving DecidableEq, Repr

/-- An entry of the reader's `Map`: the link with its parsed address and its label. -/
structure TurnLink where
  linkId : Text
  url : Text
  label : Text
  deriving DecidableEq, Repr

structure VerifiedUrlReader where
  turnId : Text
  links : List TurnLink
  deriving DecidableEq, Repr

section Host

variable [UnicodeTables]

def requiredText (value : Text) (maximum : Nat) (field : String) : Except VerifiedUrlError Text :=
  let normalized := trim (nfkc value)
  if normalized.isEmpty ∨ maximum < utf16Length normalized then
    .error ⟨.INVALID_TURN_LINKS, field ++ " is outside the allowed length."⟩
  else .ok normalized

variable [UrlParser]

def parseTurnUrl (input : Text) : Except VerifiedUrlError Url :=
  match parsePublicHttpsUrl input with
  | none =>
      .error
        ⟨.INVALID_TURN_LINKS,
         "Current-turn links must use credential-free HTTPS on the default port."⟩
  | some url => .ok url

/-- The body of the loop. -/
def addLink (links : List TurnLink) (candidate : CurrentTurnLink) :
    Except VerifiedUrlError (List TurnLink) := do
  let linkId ← requiredText candidate.linkId MAX_LINK_ID_CHARACTERS "linkId"
  let parsed ← parseTurnUrl candidate.url
  if links.any fun link => link.linkId == linkId then
    throw ⟨.INVALID_TURN_LINKS, "Current-turn link identifiers must be unique."⟩
  return links ++ [⟨linkId, parsed.href, canonicalVerifiedLinkLabel (candidate.label.getD [])⟩]

/-- `new VerifiedUrlReader({ turnId, links })`. -/
def VerifiedUrlReader.new (turnId : Text) (links : List CurrentTurnLink) :
    Except VerifiedUrlError VerifiedUrlReader := do
  let turnId ← requiredText turnId 240 "turnId"
  if MAX_LINKS_PER_TURN < links.length then
    throw ⟨.INVALID_TURN_LINKS, "Current-turn links are invalid."⟩
  let table ← links.foldlM addLink []
  return ⟨turnId, table⟩

end Host

/-! ## 1. Identifiers -/

/-- A plain text within the bound is kept as it is. -/
theorem requiredText_of_plain [UnicodeTables] {value : Text} {maximum : Nat}
    (h : value.all isPlain = true) (hne : value ≠ []) (hle : value.length ≤ maximum)
    (field : String) : requiredText value maximum field = .ok value := by
  unfold requiredText
  rw [nfkc_of_plain h, trim_of_plain h]
  dsimp only
  rw [if_neg]
  rw [utf16Length_of_plain h]
  rintro (hempty | hlong)
  · exact hne (List.isEmpty_iff.mp hempty)
  · omega

/-! ## 2. Links -/

theorem parseTurnUrl_ok_iff [UrlParser] {input : Text} :
    (∃ url, parseTurnUrl input = .ok url) ↔ ∃ url, parsePublicHttpsUrl input = some url := by
  unfold parseTurnUrl
  cases parsePublicHttpsUrl input with
  | none =>
    constructor
    · rintro ⟨url, h⟩
      nomatch h
    · rintro ⟨url, h⟩
      nomatch h
  | some url => exact ⟨fun _ => ⟨url, rfl⟩, fun _ => ⟨url, rfl⟩⟩

section Host

variable [UnicodeTables] [UrlParser]

/-- **One link**: with a plain identifier that is new, its address decides. -/
theorem addLink_eq {links : List TurnLink} {candidate : CurrentTurnLink}
    (hplain : candidate.linkId.all isPlain = true) (hne : candidate.linkId ≠ [])
    (hle : candidate.linkId.length ≤ MAX_LINK_ID_CHARACTERS)
    (hnew : ∀ link ∈ links, link.linkId ≠ candidate.linkId) :
    addLink links candidate =
      (parseTurnUrl candidate.url).map fun parsed =>
        links ++ [⟨candidate.linkId, parsed.href,
          canonicalVerifiedLinkLabel (candidate.label.getD [])⟩] := by
  have hany : (links.any fun link => link.linkId == candidate.linkId) = false := by
    rw [List.any_eq_false]
    intro link hlink
    simpa using hnew link hlink
  unfold addLink
  rw [requiredText_of_plain hplain hne hle]
  cases hp : parseTurnUrl candidate.url with
  | error e => rfl
  | ok parsed =>
    show (if (links.any fun link => link.linkId == candidate.linkId) = true then _ else _) = _
    rw [hany]
    rfl

/-- **All links**: with plain identifiers, no two alike, the loop ends well exactly if every
    address parses. -/
theorem addLinks_ok_iff {candidates : List CurrentTurnLink} {links : List TurnLink}
    (hplain : ∀ candidate ∈ candidates, candidate.linkId.all isPlain = true ∧
      candidate.linkId ≠ [] ∧ candidate.linkId.length ≤ MAX_LINK_ID_CHARACTERS)
    (hnodup : (candidates.map (·.linkId)).Nodup)
    (hnew : ∀ candidate ∈ candidates, ∀ link ∈ links, link.linkId ≠ candidate.linkId) :
    (∃ table, candidates.foldlM addLink links = .ok table) ↔
      ∀ candidate ∈ candidates, ∃ url, parsePublicHttpsUrl candidate.url = some url := by
  induction candidates generalizing links with
  | nil => exact ⟨fun _ _ h => absurd h List.not_mem_nil, fun _ => ⟨links, rfl⟩⟩
  | cons candidate rest ih =>
    obtain ⟨hc, hne, hle⟩ := hplain candidate List.mem_cons_self
    rw [List.map_cons, List.nodup_cons] at hnodup
    have hstep := addLink_eq hc hne hle (hnew candidate List.mem_cons_self)
    rw [List.foldlM_cons, hstep]
    cases hp : parseTurnUrl candidate.url with
    | error e =>
      have hnone : ¬ ∃ url, parsePublicHttpsUrl candidate.url = some url := by
        rw [← parseTurnUrl_ok_iff, hp]
        rintro ⟨url, h⟩
        nomatch h
      constructor
      · rintro ⟨table, h⟩
        nomatch h
      · exact fun h => absurd (h candidate List.mem_cons_self) hnone
    | ok parsed =>
      have hsome := parseTurnUrl_ok_iff.mp ⟨parsed, hp⟩
      -- the entry just added carries an identifier that the rest does not
      have hrest := @ih (links ++ [⟨candidate.linkId, parsed.href,
          canonicalVerifiedLinkLabel (candidate.label.getD [])⟩])
        (fun other hother => hplain other (List.mem_cons_of_mem _ hother)) hnodup.2
        (fun other hother link hlink => by
          rcases List.mem_append.mp hlink with hlink | hlink
          · exact hnew other (List.mem_cons_of_mem _ hother) link hlink
          · obtain rfl := List.mem_singleton.mp hlink
            intro (e : candidate.linkId = other.linkId)
            rw [e] at hnodup
            exact hnodup.1 (List.mem_map_of_mem hother))
      refine Iff.trans hrest ?_
      rw [List.forall_mem_cons]
      exact ⟨fun h => ⟨hsome, h⟩, fun h => h.2⟩

/-- With a turn's identifier and not too many links, the loop over the links decides. -/
theorem VerifiedUrlReader.new_eq {turnId accepted : Text} {links : List CurrentTurnLink}
    (hturn : requiredText turnId 240 "turnId" = .ok accepted)
    (hroom : links.length ≤ MAX_LINKS_PER_TURN) :
    VerifiedUrlReader.new turnId links =
      (links.foldlM addLink []).map fun table => ⟨accepted, table⟩ := by
  unfold VerifiedUrlReader.new
  rw [hturn]
  show (if MAX_LINKS_PER_TURN < links.length then _ else _) = _
  rw [if_neg (Nat.not_lt.mpr hroom)]
  cases links.foldlM addLink [] with
  | error e => rfl
  | ok table => rfl

end Host

end OpenVac.Agent
