/-
  File:      OpenVac/Chat/Evidence.lean
  Subject:   Citations, evidence and its sanitizing: server/chat/evidence.ts.

  * A text that reads like an instruction is replaced as a whole; others are normalized and bounded.
-/
import OpenVac.Lib.JsRegex

namespace OpenVac.Chat

open JsString JsRegex

inductive SourceTrustTier where
  | tier_a
  | tier_b
  | tier_c
  | blocked
  deriving DecidableEq, Repr

inductive SourceReviewStatus where
  | reviewed
  | pending_review
  | rejected
  | runtime_verified
  deriving DecidableEq, Repr

inductive LicenseClass where
  | open_
  | public_domain
  | metadata_only
  | private_authorized
  | unknown
  deriving DecidableEq, Repr

/-- A source as an answer cites it; `fetchedAt` in milliseconds. -/
structure Citation where
  sourceId : Text
  title : Text
  publisher : Text
  url : Text
  pageOrSection : Option Text
  fetchedAt : Int
  licenseClass : LicenseClass
  deriving DecidableEq, Repr

structure GroundingEvidence where
  citation : Citation
  excerpt : Text
  deriving DecidableEq, Repr

def INSTRUCTION_LIKE_EVIDENCE : Regex :=
  alts
    [cats
       [words ["忽略", "无视", "覆盖", "绕过"], gap 20, words ["之前", "上述", "系统", "安全", "规则", "指令", "提示"]],
     cats
       [words ["system", "assistant", "developer"], star space,
        opt (words ["prompt", "message", "instruction"]), star space, lit ":"],
     cats
       [words ["ignore", "disregard", "forget"], gap 30,
        words ["previous", "earlier", "system", "safety", "instruction", "constraint", "rule"]],
     cats [words ["执行", "调用"], gap 12, words ["工具", "函数", "命令"]],
     cats [words ["泄露", "显示", "输出"], gap 16, words ["提示词", "系统消息", "密钥"]],
     cats
       [lit "<", opt (lit "/"), words ["system", "assistant", "developer", "tool"], wordBoundary],
     cats [lit "[", words ["INST", "SYSTEM"], lit "]"]]

def REMOVED_INSTRUCTION : Text := "[已移除疑似指令文本]".toList

/-- `\p{Default_Ignorable_Code_Point}`. -/
def isDefaultIgnorable (c : Char) : Bool :=
  let n := c.toNat
  n == 0xAD || n == 0x34F || n == 0x61C || n == 0x115F || n == 0x1160 || n == 0x17B4 ||
    n == 0x17B5 || (0x180B ≤ n && n ≤ 0x180F) || (0x200B ≤ n && n ≤ 0x200F) ||
    (0x202A ≤ n && n ≤ 0x202E) || (0x2060 ≤ n && n ≤ 0x206F) || n == 0x3164 ||
    (0xFE00 ≤ n && n ≤ 0xFE0F) || n == 0xFEFF || n == 0xFFA0 || (0xFFF0 ≤ n && n ≤ 0xFFF8) ||
    (0x1BCA0 ≤ n && n ≤ 0x1BCA3) || (0x1D173 ≤ n && n ≤ 0x1D17A) || (0xE0000 ≤ n && n ≤ 0xE0FFF)

/-- `\p{Cc}`. -/
def isControl (c : Char) : Bool :=
  let n := c.toNat
  n ≤ 0x1F || (0x7F ≤ n && n ≤ 0x9F)

def boundText (value : Text) (maximum : Nat) : Text :=
  let compact := trim (collapseSpaces value)
  if utf16Length compact ≤ maximum then compact else clip maximum compact ++ ['…']

def isInstructionLikeEvidence (value : Text) : Bool :=
  test INSTRUCTION_LIKE_EVIDENCE value ||
    test INSTRUCTION_LIKE_EVIDENCE (value.filter fun c => !isWhiteSpace c)

section Host

variable [UnicodeTables]

def normalizeEvidenceField (value : Text) : Text :=
  let visible := (nfkc value).filter fun c => !isDefaultIgnorable c
  trim (collapseSpaces (visible.map fun c => if isControl c then ' ' else c))

def sanitizeEvidenceField (value : Text) (maximum : Nat) : Text :=
  let normalized := normalizeEvidenceField value
  if isInstructionLikeEvidence normalized then REMOVED_INSTRUCTION
  else boundText normalized maximum

def sanitizeEvidenceExcerpt (value : Text) (maximum : Nat) : Text :=
  sanitizeEvidenceField value maximum

/-- Every field on its own; if the fields read like an instruction together, before and after,
    all of them go. -/
def sanitizeGroundingEvidence (evidence : GroundingEvidence) (maximumExcerpt : Nat) :
    GroundingEvidence :=
  let title := normalizeEvidenceField evidence.citation.title
  let publisher := normalizeEvidenceField evidence.citation.publisher
  let pageOrSection := evidence.citation.pageOrSection.map normalizeEvidenceField
  let excerpt := normalizeEvidenceField evidence.excerpt
  let sanitized (value : Text) (maximum : Nat) : Text :=
    if isInstructionLikeEvidence value then REMOVED_INSTRUCTION else boundText value maximum
  let cleanTitle := sanitized title 300
  let cleanPublisher := sanitized publisher 200
  let cleanPage := pageOrSection.map fun value => sanitized value 200
  let cleanExcerpt := sanitized excerpt maximumExcerpt
  let fields := [title, publisher] ++ pageOrSection.toList ++ [excerpt]
  let cleanFields := [cleanTitle, cleanPublisher] ++ cleanPage.toList ++ [cleanExcerpt]
  if isInstructionLikeEvidence (join [' '] fields) &&
      isInstructionLikeEvidence (join [' '] cleanFields) then
    { citation :=
        { evidence.citation with
          title := REMOVED_INSTRUCTION, publisher := REMOVED_INSTRUCTION
          pageOrSection := cleanPage.map fun _ => REMOVED_INSTRUCTION }
      excerpt := REMOVED_INSTRUCTION }
  else
    { citation :=
        { evidence.citation with
          title := cleanTitle, publisher := cleanPublisher, pageOrSection := cleanPage }
      excerpt := cleanExcerpt }

theorem sanitizeGroundingEvidence_url (evidence : GroundingEvidence) (maximumExcerpt : Nat) :
    (sanitizeGroundingEvidence evidence maximumExcerpt).citation.url = evidence.citation.url := by
  have hbranch : ∀ (c : Prop) [Decidable c] (a b : GroundingEvidence),
      a.citation.url = evidence.citation.url → b.citation.url = evidence.citation.url →
      (if c then a else b).citation.url = evidence.citation.url := by
    intro c _ a b ha hb
    by_cases hc : c
    · rw [if_pos hc]
      exact ha
    · rw [if_neg hc]
      exact hb
  exact hbranch _ _ _ rfl rfl

end Host

end OpenVac.Chat
