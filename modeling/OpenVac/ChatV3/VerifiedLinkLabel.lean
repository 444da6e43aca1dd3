/-
  File:      OpenVac/ChatV3/VerifiedLinkLabel.lean
  Subject:   Unsafe visible text and the labels of verified links:
             server/chat-v3/verified-link-label.ts.

  * A text is a list of code points, so no surrogate is unpaired.
  * The host's URL parser is a parameter.
  * `unsafe_of_scheme`, `unsafe_of_www` -- a text the check accepts contains no web address with
    a scheme and none that begins with `www.`.
-/
import OpenVac.Lib.JsRegex
import OpenVac.Lib.JsUrl

namespace OpenVac.ChatV3

open JsRegex JsString JsUrl

def VERIFIED_LINK_LABEL_FALLBACK : Text := "已验证来源".toList

def MAX_VERIFIED_LINK_LABEL_UTF16_UNITS : Nat := 240

def UNSAFE_ANSWER_VISIBLE_TEXT : Regex :=
  alts
    [cats [lit "http", opt (lit "s"), lit "://"], lit "www.", cats [lit "[", plus digit, lit "]"],
     cats
       [wordBoundary,
        alts
          [words
             ["provider", "tool", "tool_call", "function_call", "formulaId", "formulaVersion",
              "normalizedInputs", "rawArguments", "schemaVersion", "evidenceNotice"],
           cats [lit "system", star space, lit "prompt"]], wordBoundary], words ["系统提示", "内部提示"],
     cats [words ["x-amz", "x-oss"], lit "-", star (oneOfOr "-" (within 'a' 'z')), lit "signature"],
     lit "ossaccesskeyid",
     cats [words ["signature", "expires"], lit "=", plus (noneOfOr "&" isWhiteSpaceCode)]]

/-- `\p{Cc}` and `\p{Cf}`. -/
def isControlOrFormat (c : Char) : Bool :=
  let n := c.toNat
  n ≤ 0x1F || (0x7F ≤ n && n ≤ 0x9F) || n == 0xAD || (0x600 ≤ n && n ≤ 0x605) || n == 0x61C ||
    n == 0x6DD || n == 0x70F || n == 0x890 || n == 0x891 || n == 0x8E2 || n == 0x180E ||
    (0x200B ≤ n && n ≤ 0x200F) || (0x202A ≤ n && n ≤ 0x202E) || (0x2060 ≤ n && n ≤ 0x2064) ||
    (0x2066 ≤ n && n ≤ 0x206F) || n == 0xFEFF || (0xFFF9 ≤ n && n ≤ 0xFFFB) || n == 0x110BD ||
    n == 0x110CD || (0x13430 ≤ n && n ≤ 0x1343F) || (0x1BCA0 ≤ n && n ≤ 0x1BCA3) ||
    (0x1D173 ≤ n && n ≤ 0x1D17A) || n == 0xE0001 || (0xE0020 ≤ n && n ≤ 0xE007F)

section Host

variable [UnicodeTables]

def containsUnsafeAnswerVisibleText (value : Text) : Bool :=
  test UNSAFE_ANSWER_VISIBLE_TEXT (nfkc value)

variable [UrlParser]

def isUrlLikeVerifiedLinkLabel (value : Text) : Bool :=
  if value.any isWhiteSpace then false
  else
    let candidate := if value.getLast? == some '.' then value.dropLast else value
    if candidate.isEmpty || !candidate.any "./:[]".toList.contains then false
    else
      match UrlParser.parse ("https://".toList ++ candidate) with
      | none => false
      | some parsed =>
          parsed.username.isEmpty && parsed.password.isEmpty && !parsed.hostname.isEmpty &&
            (parsed.hostname.contains '.' || parsed.hostname.head? == some '[' ||
              parsed.hostname.all fun c => within '0' '9' c.toNat || c == '.')

def canonicalVerifiedLinkLabel (value : Text) : Text :=
  if utf16Length value > 4096 then VERIFIED_LINK_LABEL_FALLBACK
  else
    -- a run of controls becomes one blank, and a run of blanks too
    let blanked := (nfkc value).map fun c => if isControlOrFormat c then ' ' else c
    let normalized := trim (collapseSpaces blanked)
    if normalized.isEmpty || containsUnsafeAnswerVisibleText normalized ||
        isUrlLikeVerifiedLinkLabel normalized then
      VERIFIED_LINK_LABEL_FALLBACK
    else
      let canonical := trim (clip MAX_VERIFIED_LINK_LABEL_UTF16_UNITS normalized)
      if canonical.isEmpty || containsUnsafeAnswerVisibleText canonical ||
          isUrlLikeVerifiedLinkLabel canonical then
        VERIFIED_LINK_LABEL_FALLBACK
      else canonical

end Host

/-! ## Web addresses are unsafe -/

section Host

variable [UnicodeTables]

/-- `http`, an optional `s` and `://` in any case. -/
theorem unsafe_of_scheme (s : List Char) (hs : s = [] ∨ s = ['s']) {value : Text}
    (h : folded ("http".toList ++ s ++ "://".toList) <:+: folded (nfkc value)) :
    containsUnsafeAnswerVisibleText value = true := by
  refine test_of_infix (fun u before post hu => ?_) h
  unfold folded at hu
  rw [List.map_append, List.map_append] at hu
  obtain ⟨u₁₂, u₃, rfl, hu₁₂, h₃⟩ := List.map_eq_append_iff.mp hu
  obtain ⟨u₁, u₂, rfl, h₁, h₂⟩ := List.map_eq_append_iff.mp hu₁₂
  rw [List.append_assoc, List.append_assoc]
  obtain ⟨last₁, hm₁⟩ := matches_lit "http" h₁ before (u₂ ++ (u₃ ++ post))
  have hm₂ : ∃ last, Matches (opt (lit "s")) ⟨last₁, u₂ ++ (u₃ ++ post)⟩ ⟨last, u₃ ++ post⟩ := by
    rcases hs with rfl | rfl
    · obtain rfl := List.map_eq_nil_iff.mp h₂
      exact ⟨last₁, 0, Nat.le_refl 0, fun _ _ => Nat.zero_le _, Repeats.zero _⟩
    · obtain ⟨last, hm⟩ := matches_lit "s" h₂ last₁ (u₃ ++ post)
      refine ⟨last, 1, Nat.zero_le 1, fun m e => ?_, Repeats.succ hm (Repeats.zero _)⟩
      obtain rfl := Option.some.inj e
      exact Nat.le_refl 1
  obtain ⟨last₂, hm₂⟩ := hm₂
  obtain ⟨last₃, hm₃⟩ := matches_lit "://" h₃ last₂ post
  exact ⟨_, Or.inl ⟨_, hm₁, _, hm₂, _, hm₃, rfl⟩⟩

theorem unsafe_of_www {value : Text} (h : folded "www.".toList <:+: folded (nfkc value)) :
    containsUnsafeAnswerVisibleText value = true := by
  refine test_of_infix (fun u before post hu => ?_) h
  obtain ⟨last, hm⟩ := matches_lit "www." hu before post
  exact ⟨_, Or.inr (Or.inl hm)⟩

end Host

end OpenVac.ChatV3
