/-
  File:      OpenVac/Agent/ArtifactSemantics.lean
  Subject:   The units and assumptions of a parameter table: server/agent/artifact-semantics.ts.

  * `CharacterClasses` -- the classes of characters that the patterns take from Unicode.
  * `hasPhysicalUnitValue` -- the texts that read as a unit.
  * `hasAssumptionValueText` -- the texts that state an assumption; `hasAssumptionValueText_eq`.
  * `inspectParameterTableSemantics` -- has a table units and assumptions?
-/
import OpenVac.Lib.JsRegex
import OpenVac.Lib.JsText
import OpenVac.Artifacts.Spec

namespace OpenVac.Agent.ArtifactSemantics

open JsString JsRegex OpenVac.Artifacts

/-! ## 1. Texts and patterns -/

/-- The classes of characters that patterns name. The block of the unified ideographs is Han. -/
class CharacterClasses where
  letter : Char → Bool
  number : Char → Bool
  mark : Char → Bool
  punctuation : Char → Bool
  symbol : Char → Bool
  han : Char → Bool
  han_ideograph : ∀ c : Char, 0x4E00 ≤ c.toNat → c.toNat ≤ 0x9FFF → han c = true

/-- What a pattern sees of a string. A surrogate without a partner is in no class that the patterns
    name, and neither is U+FFFF. -/
def chars (s : Points) : Text := s.map fun
  | .scalar c => c
  | .surrogate _ => '\uFFFF'

/-- `/^(?:…)$/`. -/
def whole (r : Regex) : Regex := cats [start, r, finish]

/-- What is left of a text after a pattern at its start, where that is all of a further one's. -/
def inlineAfter (r inline : Regex) (s : Cursor) : Option Text :=
  search r (fun s => if (search (cats [inline, finish]) some s).isSome then some s.rest else none) s

/-- `value.split(/[;；]/u)`. -/
def splitSemicolons (value : Text) : List Text :=
  (split ';' value).flatMap (split '；')

/-! ## 2. Units -/

def emptyPlaceholder : Regex :=
  whole (alts [cats [lit "n", opt (lit "/"), lit "a"], lit "none", plus (oneOf "-—/")])

/-- `待(?:用户)?确认|未提供|未知|待定|不详`. -/
def missingStatus : List Regex :=
  [cats [lit "待", opt (lit "用户"), lit "确认"], lit "未提供", lit "未知", lit "待定", lit "不详"]

def assumptionMissingStatus : Regex :=
  whole (alts (missingStatus ++ [lit "tbd", lit "not provided", lit "unknown"]))

/-- `\bword\b`. -/
def bounded (r : Regex) : Regex := cats [wordBoundary, r, wordBoundary]

def placeholderPhrase : Regex :=
  alts (missingStatus ++
    [bounded (lit "tbd"), bounded (lit "unknown"), bounded (lit "pending"),
     bounded (cats [lit "n", opt (lit "/"), lit "a"]),
     bounded (cats [lit "not", plus space, words ["provided", "available", "confirmed"]]),
     bounded (cats [lit "to", plus space, opt (cats [lit "be", plus space]), lit "confirm",
       opt (lit "ed")])])

/-- Its flag is `u` alone. -/
def chineseUnitValue : Regex :=
  whole (alts
    [exactWords ["帕", "千帕", "兆帕", "巴", "毫巴", "托", "升", "毫升", "秒", "分钟", "小时", "米",
       "毫米", "厘米", "微米", "纳米", "千克", "克", "瓦", "千瓦", "伏", "安", "毫安", "赫兹", "转/分",
       "分贝", "摄氏度", "华氏度", "开尔文", "无量纲"],
     cats [exactWords ["升", "立方米"], exact "/", exactWords ["秒", "小时"]],
     cats [exactWords ["帕", "毫巴", "托"], oneOfExactOr "·*" fun _ => false,
       exactWords ["升", "立方米"], exact "/秒"]])

/-- `µ` and `μ` under the flag `i`, and what folds to them. -/
def isMicro (n : Nat) : Bool := n == 0xB5 || n == 0x3BC || n == 0x39C

/-- `ω` under the flag `i`. -/
def isOhm (n : Nat) : Bool := n == 0x3C9 || n == 0x3A9 || n == 0x2126

def unitAtom : Regex :=
  alts
    [cats [opt (oneOfOr "yzafpnumcdhkMGTPEZY" isMicro),
       alts ([words ["m", "g", "s", "a", "k", "mol", "cd", "hz", "n", "pa", "j", "w", "c", "v", "f"],
         .set fun c => isOhm c.toNat,
         words ["ohm", "siemens", "wb", "t", "h", "lm", "lx", "bq", "gy", "sv", "kat", "l"]])],
     lit "min", cats [opt (oneOfOr "mk" isMicro), lit "bar"], cats [opt (oneOfOr "m" isMicro), lit "torr"],
     words ["psi", "atm", "rpm", "cfm", "sccm", "mmhg", "cmh2o"], cats [lit "micron", opt (lit "s")],
     cats [lit "db", opt (lit "a")], cats [lit "molecule", opt (lit "s")],
     words ["dimensionless", "%", "℃", "℉"], cats [lit "°", oneOf "cfk"]]

/-- A unit and its power. -/
def unitFactor : Regex := cats [unitAtom, star (oneOf "²³⁰¹⁴⁵⁶⁷⁸⁹⁻0123456789^+-")]

def unitExpression : Regex := whole (cats [unitFactor, star (cats [oneOf "·*/", unitFactor])])

/-- Nothing, or a word for nothing. -/
def isPlaceholder (value : Text) : Bool :=
  value.isEmpty || test emptyPlaceholder value || test assumptionMissingStatus value ||
    test placeholderPhrase value

def hasPhysicalUnitValue (value : Text) : Bool :=
  let normalized := trim value
  if isPlaceholder normalized then false
  else
    let unitSegment := trim ((splitSemicolons normalized).headD [])
    if isPlaceholder unitSegment then false
    else
      let compact := (unitSegment.filter fun c => !isWhiteSpace c).filter fun c => c != '(' && c != ')'
      if test chineseUnitValue compact then true
      else decide (utf16Length compact ≤ 48) && test unitExpression compact

/-! ## 3. Assumptions -/

/-- The unit of `/^[-+]?\d+(?:[.,]\d+)?(?:[eE][-+]?\d+)?\s*(?<unit>[^\d\s].*?)\s*$/u`. -/
def numericUnit (value : Text) : Option Text :=
  search (cats [start, opt (oneOf "-+"), plus digit, opt (cats [oneOf ".,", plus digit]),
      opt (cats [oneOf "eE", opt (oneOf "-+"), plus digit]), star space])
    (fun s => search (cats [.set fun c => !(within '0' '9' c.toNat || isWhiteSpace c),
        .rep dot 0 none false])
      (fun e => (search (cats [star space, finish]) some e).map fun _ =>
        s.rest.take (s.rest.length - e.rest.length)) s)
    ⟨none, value⟩

def hasNumericPhysicalCondition (value : Text) : Bool := (numericUnit value).any hasPhysicalUnitValue

def scopeWords : Regex := words ["单位", "假设", "工况", "条件", "unit", "assumption", "condition"]

section Classes

variable [CharacterClasses]

/-- `[\d\s\p{P}\p{S}]`. -/
def isFiller (c : Char) : Bool :=
  within '0' '9' c.toNat || isWhiteSpace c || CharacterClasses.punctuation c ||
    CharacterClasses.symbol c

/-- `hasAssumptionValueText`, with the parts after a semicolon left to `rest`. -/
def assumptionValueText (rest : Text → Bool) (value : Text) : Bool :=
  let normalized := trim value
  if test emptyPlaceholder normalized then false
  else if test (cats [start, opt (oneOf "-+"), digit]) normalized then
    hasNumericPhysicalCondition normalized
  else if test assumptionMissingStatus normalized then true
  else if test placeholderPhrase normalized then true
  else
    let delimitedParts := splitSemicolons normalized
    if decide (delimitedParts.length > 1) && (delimitedParts.drop 1).any rest then true
    else if hasPhysicalUnitValue normalized then false
    else
      let semanticRemainder := (replaceAll scopeWords [] normalized).filter fun c => !isFiller c
      decide (semanticRemainder.length ≥ 2)

/-- `hasAssumptionValueText`, of parts to a depth. A part after a semicolon has none. -/
def assumptionValueTextTo : Nat → Text → Bool
  | 0, _ => false
  | depth + 1, value => assumptionValueText (assumptionValueTextTo depth) value

def hasAssumptionValueText (value : Text) : Bool := assumptionValueTextTo 2 value

/-- **The depth is enough**: a part after a semicolon has no semicolon. -/
theorem hasAssumptionValueText_eq (value : Text) :
    hasAssumptionValueText value = assumptionValueText hasAssumptionValueText value := by
  have hpart (rest rest' : Text → Bool) {part : Text} (hsemicolon : ';' ∉ part)
      (hwide : '；' ∉ part) : assumptionValueText rest part = assumptionValueText rest' part := by
    have hsub := trim_sublist part
    have hone : splitSemicolons (trim part) = [trim part] := by
      rw [splitSemicolons, split_eq_singleton fun h => hsemicolon (hsub.subset h),
        List.flatMap_singleton, split_eq_singleton fun h => hwide (hsub.subset h)]
    unfold assumptionValueText
    simp only [hone, List.length_singleton, Nat.lt_irrefl, decide_false, Bool.false_and]
  have hclean : ∀ part ∈ splitSemicolons (trim value), ';' ∉ part ∧ '；' ∉ part := by
    intro part hpart
    obtain ⟨outer, houter, hinner⟩ := List.mem_flatMap.mp hpart
    exact ⟨fun h => not_mem_of_mem_split houter (mem_of_mem_split hinner ';' h),
      not_mem_of_mem_split hinner⟩
  have hrest (depth depth' : Nat) : ((splitSemicolons (trim value)).drop 1).any
      (assumptionValueTextTo (depth + 1)) =
      ((splitSemicolons (trim value)).drop 1).any (assumptionValueTextTo (depth' + 1)) := by
    refine Bool.eq_iff_iff.mpr ?_
    simp only [List.any_eq_true]
    refine exists_congr fun part => and_congr_right fun hmem => ?_
    obtain ⟨hsemicolon, hwide⟩ := hclean part (List.mem_of_mem_drop hmem)
    exact Bool.eq_iff_iff.mp (hpart _ _ hsemicolon hwide)
  show assumptionValueText (assumptionValueTextTo 1) value =
    assumptionValueText (assumptionValueTextTo 2) value
  unfold assumptionValueText
  simp only [hrest 0 1]

/-- The note of `explicitAssumptionNoteLabel`, if there is one. -/
def explicitAssumptionNote (value : Text) : Option (Option Text) :=
  search
    (cats [start,
      alts
        [cats [words ["假设", "工况", "条件"],
           star (cats [oneOf "/、", words ["假设", "工况", "条件"]]), opt (words ["说明", "备注", "注"])],
         cats [alts [lit "assumption", cats [lit "operating", plus space, lit "condition"],
             lit "condition"],
           opt (cats [plus space, words ["note", "notes", "remark", "remarks"]])]],
      star space])
    (fun s => ((inlineAfter (cats [oneOf ":：", star space]) (plus dot) s).map some).or
      (if s.rest.isEmpty then some none else none))
    ⟨none, value⟩

/-- The content of `delimitedAssumptionContent`. -/
def delimitedAssumption (value : Text) : Option Text :=
  inlineAfter
    (cats [start,
      alts [words ["假设", "工况", "条件", "assumption"],
        cats [lit "operating", plus space, lit "condition"], lit "condition"],
      star space, opt (cats [oneOf ":：-", star space])])
    (plus dot) ⟨none, value⟩

def assumptionScopedField : Regex :=
  whole (alts
    [cats [opt (cats [lit "单位", star space, oneOf "/、", star space]),
       opt (upTo 6 (.set CharacterClasses.han)), words ["假设", "工况", "条件"],
       star (cats [oneOf "/、", words ["假设", "工况", "条件"]]),
       opt (words ["说明", "备注", "注", "值", "范围", "状态"])],
     cats [opt (cats [lit "unit", star space, lit "/", star space]),
       opt (cats [words ["operating", "design", "boundary", "applicable"], plus space]),
       cats [words ["assumption", "condition"], opt (lit "s")],
       opt (cats [plus space,
         alts [cats [lit "note", opt (lit "s")], cats [lit "remark", opt (lit "s")], lit "scope",
           lit "range", lit "status"]])]])

def hasExplicitAssumptionNote (row : List Text) : Bool :=
  (row.mapIdx fun index value =>
    match explicitAssumptionNote (trim value) with
    | none => false
    | some inline =>
        if inline.any hasAssumptionValueText then true
        else
          (row.mapIdx fun candidateIndex candidate =>
            candidateIndex != index && hasAssumptionValueText candidate).any id).any id

def hasDelimitedAssumptionContent (value : Text) : Bool :=
  ((splitSemicolons value).drop 1).any fun part =>
    (delimitedAssumption (trim part)).any hasAssumptionValueText

/-! ## 4. Tables -/

structure ParameterTableSemantics where
  hasUnitValue : Bool
  hasAssumptionValue : Bool
  deriving DecidableEq

def unitField : Regex := words ["单位", "unit"]

/-- A column of a table with a heading and a cell of its own. -/
def columnHolds (table : ArtifactTable) (heading cell : Text → Bool) : Bool :=
  (table.columns.mapIdx fun columnIndex column =>
    heading (chars column) &&
      table.rows.any fun row => cell (chars ((row[columnIndex]?).getD []))).any id

def inspectParameterTableSemantics (spec : ArtifactSpec) : ParameterTableSemantics :=
  if spec.kind != .parameter_table then ⟨false, false⟩
  else
    { hasUnitValue := spec.tables.any (columnHolds · (test unitField) hasPhysicalUnitValue)
      hasAssumptionValue :=
        spec.sections.any (fun part =>
            test assumptionScopedField (chars part.heading) &&
              part.paragraphs.any fun paragraph => hasAssumptionValueText (chars paragraph)) ||
          spec.tables.any (columnHolds · (test assumptionScopedField) hasAssumptionValueText) ||
          spec.tables.any (fun table => table.rows.any fun row =>
            row.any fun cell => hasDelimitedAssumptionContent (chars cell)) ||
          spec.tables.any fun table => table.rows.any fun row =>
            hasExplicitAssumptionNote (row.map chars) }

end Classes

end OpenVac.Agent.ArtifactSemantics
