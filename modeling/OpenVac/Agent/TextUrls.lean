/-
  File:      OpenVac/Agent/TextUrls.lean
  Subject:   Addresses in the text of a discovery: `extractTextUrlCandidates` and
             `trimTrailingUrlPunctuation` of server/agent/web-evidence.ts.

  * `trimTrailingUrlPunctuation` -- an address without the punctuation and the unbalanced brackets
    after it.
  * `parseTextCandidateUrl` -- the address of a match.
  * `extractTextUrlCandidates` -- the candidates of a text.
-/
import OpenVac.Agent.WebEvidence
import OpenVac.Lib.CodePoints

namespace OpenVac.Agent.TextUrls

open JsString JsRegex JsUrl

/-! ## 1. Strings -/

/-- The string as the host's URL parser gets it: U+FFFD for a surrogate without a partner. A pattern
    of no surrogates matches the one as it does the other. -/
def wellFormed (s : Points) : Text := s.map fun
  | .scalar c => c
  | .surrogate _ => '\uFFFD'

/-- The first half of a character's pair. -/
def leadingSurrogate (c : CodePoint) : CodePoint :=
  .surrogate (Fin.ofNat 0x800 ((c.toNat - 0x10000) / 0x400))

/-- `s.slice(0, units)`. -/
def clipPoints : Nat → Points → Points
  | _, [] => []
  | units, c :: rest =>
      if c.units ≤ units then c :: clipPoints (units - c.units) rest
      else if units = 0 then []
      else [leadingSurrogate c]

/-! ## 2. Trimming -/

/-- `[.,;:!?，。；：！？、]`. -/
def sentencePunctuation : Points := ".,;:!?，。；：！？、".toList.map .scalar

def isSentencePunctuation (c : CodePoint) : Bool := sentencePunctuation.contains c

/-- A text from its end: closing brackets go while there are more of them than of their partners. -/
def dropClosing (opening closing : CodePoint) : Points → Points
  | [] => []
  | c :: rest =>
      if c = closing ∧ List.count opening (c :: rest) < List.count closing (c :: rest) then
        dropClosing opening closing rest
      else c :: rest

def trimClosing (opening closing : CodePoint) (trimmed : Points) : Points :=
  (dropClosing opening closing trimmed.reverse).reverse

def trimTrailingUrlPunctuation (value : Points) : Points :=
  let trimmed := value.rdropWhile isSentencePunctuation
  trimClosing '\x7b' '\x7d' (trimClosing '[' ']' (trimClosing '(' ')' trimmed))

/-! ## 3. Extraction -/

/-- `/https:\/\/[^\s<>"'`]+/giu`. -/
def urlPattern : Regex := cats [lit "https://", plus (noneOfOr "<>\"'`" isWhiteSpaceCode)]

def MAX_TEXT_DISCOVERY_CHARACTERS : Nat := 32768

def MAX_TEXT_URL_TOKENS : Nat := 64

/-- A match and where it begins, in UTF-16 units. -/
structure TextMatch where
  index : Nat
  text : Points

def matchAll (pattern : Regex) (scanValue : Points) : List TextMatch :=
  (execAll pattern (wellFormed scanValue)).map fun found =>
    { index := Points.length (List.take found.1 scanValue)
      text := List.drop found.1 (List.take found.2 scanValue) }

section Host

variable [UrlParser]

def parseTextCandidateUrl (value : Points) : Option Url :=
  let trimmed := trimTrailingUrlPunctuation value
  if MAX_DISCOVERY_URL_CHARACTERS < Points.length trimmed then none
  else
    match parsePublicHttpsUrl (wellFormed trimmed) with
    | none => none
    | some parsed =>
        if utf16Length parsed.href ≤ MAX_DISCOVERY_URL_CHARACTERS then some parsed else none

/-- The loop over the matches, with the number inspected and the candidates so far. -/
def collectFrom : Nat → List WebCandidate → List TextMatch → List WebCandidate
  | _, candidates, [] => candidates
  | inspected, candidates, found :: rest =>
      if MAX_TEXT_DISCOVERY_CHARACTERS ≤ found.index then candidates
      else if MAX_TEXT_URL_TOKENS < inspected + 1 then candidates
      else
        match parseTextCandidateUrl found.text with
        | none => collectFrom (inspected + 1) candidates rest
        | some parsed =>
            if candidates.any fun item => item.url == parsed.href then
              collectFrom (inspected + 1) candidates rest
            else
              let more := candidates ++ [{ url := parsed.href, title := parsed.hostname, summary := [] }]
              if more.length = 32 then more else collectFrom (inspected + 1) more rest

def extractTextUrlCandidates (value : Points) : List WebCandidate :=
  collectFrom 0 [] (matchAll urlPattern
    (clipPoints (MAX_TEXT_DISCOVERY_CHARACTERS + MAX_DISCOVERY_URL_CHARACTERS + 1) value))

end Host

end OpenVac.Agent.TextUrls
