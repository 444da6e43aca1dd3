/-
  File:      OpenVac/Agent/HighRiskBoundaries.lean
  Subject:   The safety boundaries of a high-risk answer: `validateHighRiskAnswerBoundaries` of
             server/agent/prompt.ts with its regular expressions, part by part.

  * A dangerous action is allowed where a negation stands before it, a prohibition behind it, or
    a conjunction ties it to an action that is negated.
  * `validateHighRiskAnswerBoundaries` -- the answer asks to stop, to isolate and to contact a
    professional, and continues nowhere.
-/
import OpenVac.Lib.JsRegex

namespace OpenVac.Agent

open JsRegex JsString

/-! ## 1. Dangerous actions -/

def device : Regex := words ["设备", "机器", "泵", "真空泵", "系统"]

def poweredDevice : Regex := words ["设备", "机器", "泵", "真空泵", "系统", "控制柜", "电机"]

def englishDevice : Regex := words ["pump", "equipment", "machine", "system", "device"]

def englishPanel : Regex := words ["pump", "equipment", "machine", "system", "device", "panel"]

def englishPanelOrIt : Regex :=
  words ["pump", "equipment", "machine", "system", "device", "panel", "it"]

def defeated : Regex :=
  alts
    [cats [lit "bypass", opt (words ["ed", "es", "ing"])],
     cats [lit "override", opt (words ["n", "s", "ing"])],
     cats [lit "disable", opt (words ["d", "s", "ing"])],
     cats [lit "defeat", opt (words ["ed", "s", "ing"])],
     cats [lit "circumvent", opt (words ["ed", "s", "ing"])],
     cats [lit "jumper", opt (words ["ed", "s", "ing"])],
     cats [lit "bridge", opt (words ["d", "s", "ing"])],
     cats [lit "shunt", opt (words ["ed", "s", "ing"])],
     cats [lit "short", opt (words ["ed", "s", "ing"]), opt (cats [plus space, lit "out"])]]

def protection : Regex :=
  alts
    [lit "interlock",
     cats [lit "e", opt (oneOfOr "-" isWhiteSpaceCode), lit "stop"],
     cats [lit "emergency", plus space, lit "stop"], cats [lit "safety", plus space, lit "circuit"],
     lit "protection"]

/-- Restarting or resuming operation after an asserted stop. -/
def RESTART : Regex :=
  alts
    [cats
       [words ["重新", "再次", "再度", "恢复", "继续"], opt (words ["自行", "直接", "立即", "尝试"]),
        words ["启动", "起动", "开机", "运行"]],
     cats [words ["保持", "维持", "持续"], opt (cats [device, opt (lit "的")]), words ["运行", "启动"]],
     cats
       [words ["随后", "然后", "之后", "接着", "再"], opt (words ["自行", "直接", "立即", "尝试"]),
        words ["启动", "起动", "开机", "运行"], opt device], cats [words ["重启", "复机"], opt device]]

/-- Re-energizing equipment after an asserted energy isolation. -/
def REENERGIZE : Regex :=
  alts
    [alts [words ["送电", "通电", "上电", "合闸"], cats [words ["重新", "再次", "再度", "恢复"], lit "供电"]],
     cats [words ["接通", "打开", "恢复"], opt poweredDevice, opt (lit "的"), lit "电源"],
     cats [words ["闭合", "合上"], opt poweredDevice, opt (lit "的"), words ["断路器", "接触器", "电闸", "开关"]]]

/-- Removing isolation or returning equipment to service. -/
def RETURN_TO_SERVICE : Regex :=
  alts
    [cats
       [words ["解除", "取消", "撤销", "移除"], opt (cats [poweredDevice, opt (lit "的")]),
        opt (cats [words ["能源", "电源", "气源", "介质源", "热源"], opt (lit "的")]),
        words ["隔离", "锁定", "挂牌"]],
     cats
       [words ["投入", "恢复", "重新开始", "继续"], opt (lit "正常"),
        words ["生产", "服务", "使用", "作业", "工艺", "运行"]], cats [words ["开启", "打开"], poweredDevice],
     cats
       [alts [cats [lit "按", opt (lit "下")], words ["操作", "触发"]],
        opt (cats [device, opt (lit "的")]), words ["启动", "运行"], words ["按钮", "开关"]]]

/-- Live electrical inspection, testing or repair. -/
def LIVE_WORK : Regex :=
  cats
    [lit "带电", opt (words ["进行", "执行", "开展", "做", "去做"]),
     words ["检查", "检测", "测试", "测量", "排查", "诊断", "检修", "维修", "拆修", "操作", "接线", "作业"]]

/-- Defeating safety or interlock protection. Match either word order. -/
def BYPASS : Regex :=
  alts
    [cats
       [opt (words ["临时", "暂时", "直接", "手动", "强制"]),
        words ["绕过", "旁路", "屏蔽", "短接", "跨接", "取消", "解除"],
        upTo 12
          (alts
            [words ["任何", "全部", "相关", "该", "此", "安全", "设备", "系统", "控制柜", "泵", "真空泵", "的"], space]),
        words ["联锁", "互锁", "保护", "急停", "安全回路"]],
     cats
       [words ["联锁", "互锁", "保护", "急停", "安全回路"],
        upTo 8 (alts [words ["装置", "系统", "回路", "功能", "的"], space]),
        opt (words ["临时", "暂时", "直接", "手动", "强制"]),
        words ["绕过", "旁路", "屏蔽", "短接", "跨接", "取消", "解除"]]]

/-- English restart/resume variants. -/
def ENGLISH_RESTART : Regex :=
  alts
    [cats
       [wordBoundary,
        alts
          [cats
             [lit "re", opt (oneOfOr "-" isWhiteSpaceCode), lit "start",
              opt (words ["ed", "ing", "s"])], cats [lit "restart", opt (words ["ed", "ing", "s"])],
           cats
             [lit "start", opt (words ["ed", "ing", "s"]), plus space,
              opt (cats [words ["the", "this"], plus space]),
              opt (cats [englishDevice, plus space]), lit "again"]], wordBoundary],
     cats
       [wordBoundary, words ["then", "afterward", "afterwards", "subsequently", "next"], plus space,
        opt (alts [cats [lit "directly", plus space], cats [lit "immediately", plus space]]),
        alts
          [cats [words ["start", "run", "operate"], opt (words ["ed", "s", "ing"])],
           cats [lit "power", opt (words ["ed", "s", "ing"]), plus space, lit "on"]],
        opt (cats [plus space, words ["the", "this"], plus space, englishPanel]), wordBoundary],
     cats
       [wordBoundary,
        alts
          [cats
             [lit "resume", opt (words ["d", "s", "ing"]), plus space,
              opt (cats [words ["the", "this"], plus space]),
              words
                ["pump", "equipment", "machine", "system", "device", "operation", "operations",
                 "running"]],
           cats
             [lit "continue", opt (words ["d", "s", "ing"]), plus space,
              opt (cats [lit "to", plus space]),
              words ["run", "running", "operate", "operating", "operation"]]], wordBoundary]]

/-- English power restoration variants. -/
def ENGLISH_REENERGIZE : Regex :=
  alts
    [cats
       [wordBoundary,
        alts
          [cats
             [lit "re", opt (oneOfOr "-" isWhiteSpaceCode), lit "energiz",
              words ["e", "ed", "es", "ing"]], cats [lit "energiz", words ["e", "ed", "es", "ing"]],
           cats
             [lit "restore", opt (words ["d", "s", "ing"]), plus space,
              opt (cats [lit "the", plus space]), words ["power", "electricity", "supply"]],
           cats
             [lit "power", opt (words ["ed", "ing", "s"]), plus space,
              opt (cats [lit "the", plus space]), opt englishPanel, star space, words ["on", "up"]],
           cats
             [lit "turn", opt (words ["ed", "s", "ing"]), plus space,
              opt (cats [lit "the", plus space]), words ["power", "electricity", "supply"],
              plus space, lit "back", plus space, lit "on"],
           cats
             [lit "clos", words ["e", "ed", "es", "ing"], plus space,
              opt (cats [lit "the", plus space]), words ["breaker", "contactor"]]], wordBoundary],
     cats
       [wordBoundary,
        alts
          [cats [lit "return", opt (words ["ed", "s", "ing"])],
           cats [lit "put", opt (words ["s", "ting"])],
           cats [lit "plac", words ["e", "ed", "es", "ing"]],
           cats [lit "bring", opt (words ["s", "ing"])], lit "brought"], plus space,
        opt (cats [words ["the", "this", "that"], plus space]), opt englishPanelOrIt, star space,
        opt (cats [lit "back", plus space]), words ["to", "into"], plus space, lit "service",
        wordBoundary],
     cats
       [wordBoundary,
        alts
          [cats [lit "switch", opt (words ["ed", "es", "ing"])],
           cats [lit "turn", opt (words ["ed", "s", "ing"])]], plus space,
        opt (cats [words ["the", "this", "that"], plus space]), englishPanelOrIt, plus space,
        lit "back", plus space, lit "on", wordBoundary],
     cats
       [wordBoundary,
        alts
          [cats [lit "remove", opt (words ["d", "s", "ing"])],
           cats [lit "release", opt (words ["d", "s", "ing"])],
           cats [lit "lift", opt (words ["ed", "s", "ing"])]], plus space,
        opt (cats [lit "the", plus space]), opt (cats [lit "energy", plus space]),
        words ["isolation", "lockout", "lock-out"], wordBoundary],
     cats
       [wordBoundary,
        alts
          [cats [lit "restore", opt (words ["d", "s", "ing"])],
           cats [lit "resume", opt (words ["d", "s", "ing"])]], plus space,
        opt (cats [lit "normal", plus space]),
        alts [words ["production", "service"], cats [lit "operation", opt (lit "s")]],
        wordBoundary]]

/-- English live electrical work. -/
def ENGLISH_LIVE_WORK : Regex :=
  cats
    [wordBoundary,
     opt
       (cats
         [alts [words ["perform", "conduct"], cats [lit "carry", plus space, lit "out"], lit "do"],
          opt (words ["ed", "s", "ing"]), plus space]), words ["live", "energized", "energised"],
     plus space, opt (cats [lit "electrical", plus space]),
     alts
       [words
          ["inspection", "check", "checking", "test", "testing", "measurement", "measuring",
           "troubleshooting"], cats [lit "diagnostic", opt (lit "s")],
        words ["repair", "servicing", "maintenance", "work"]], wordBoundary]

/-- English interlock/safety bypass variants, in either word order. -/
def ENGLISH_BYPASS : Regex :=
  alts
    [cats
       [wordBoundary,
        opt
          (alts
            [cats [lit "temporar", words ["y", "ily"]],
             words ["directly", "manually", "forcibly"]]), star space, defeated,
        opt (cats [plus space, words ["the", "a", "any"]]),
        opt (cats [plus space, words ["safety", "protective", "emergency"]]), plus space,
        protection, wordBoundary],
     cats
       [wordBoundary, protection, opt (cats [plus space, words ["system", "circuit", "function"]]),
        plus space, opt (cats [lit "is", plus space]),
        opt
          (alts
            [cats [lit "temporar", words ["y", "ily"]],
             words ["directly", "manually", "forcibly"]]), star space, defeated, wordBoundary]]

def HIGH_RISK_DANGEROUS_ACTION_PATTERN : Regex :=
  alts
    [RESTART, REENERGIZE, RETURN_TO_SERVICE, LIVE_WORK, BYPASS, ENGLISH_RESTART, ENGLISH_REENERGIZE,
     ENGLISH_LIVE_WORK, ENGLISH_BYPASS]


/-! ## 2. Their negations -/

def DIRECT_CHINESE_NEGATION : Regex :=
  cats
    [words ["严禁", "禁止", "不得", "不要", "不可", "切勿", "避免", "不应", "不能", "不允许", "请勿", "勿"],
     star
       (cats
         [star (alts [space, words [":", "："]]),
          words
            ["擅自", "自行", "直接", "立即", "随意", "贸然", "临时", "暂时", "再次", "重新", "恢复", "继续", "尝试", "试图",
             "任何人", "人员", "操作人员", "设备", "泵", "真空泵", "系统", "控制柜", "电机", "进行", "执行", "开展", "做",
             "去做"]]), star space, finish]

def DIRECT_ENGLISH_NEGATION : Regex :=
  cats
    [wordBoundary,
     alts
       [cats [lit "do", plus space, lit "not"], lit "don't",
        cats [lit "must", plus space, lit "not"], lit "never",
        cats [lit "should", plus space, lit "not"], words ["cannot", "can't"],
        cats [lit "may", plus space, lit "not"], lit "avoid", cats [lit "prohibit", opt (lit "ed")],
        cats [lit "forbid", opt (lit "den")]],
     star
       (cats
         [star (alts [space, lit ":"]),
          alts
            [lit "ever", cats [lit "attempt", opt (lit "ing"), plus space, lit "to"],
             cats [lit "try", opt (lit "ing"), plus space, lit "to"],
             words ["directly", "immediately", "temporarily", "again"],
             cats [lit "perform", opt (lit "ing")], cats [lit "conduct", opt (lit "ing")],
             cats [lit "carry", opt (lit "ing"), plus space, lit "out"],
             cats [lit "do", opt (lit "ing")]]]), star space, finish]

def SAFETY_SUFFIX : Regex :=
  cats
    [start, star space,
     alts
       [cats
          [opt (cats [poweredDevice, opt (lit "的")]), words ["是", "属于", "均为", "仍为"], opt (lit "明确"),
           alts
             [cats [lit "禁止", opt (lit "的")], cats [lit "不允许", opt (lit "的")],
              words ["不可", "不得", "不应", "严禁"]]],
        cats
          [opt (cats [words ["the", "this", "that"], plus space]), opt englishPanel, star space,
           alts
             [words ["is", "remains"], cats [lit "must", plus space, lit "be"],
              cats [lit "should", plus space, lit "be"]], plus space,
           opt (cats [lit "strictly", plus space]),
           alts
             [words ["prohibited", "forbidden"], cats [lit "not", plus space, lit "allowed"],
              cats [lit "to", plus space, lit "be", plus space, lit "avoided"]], wordBoundary]]]

def SAFE_CHINESE_COORDINATION : Regex :=
  cats
    [start,
     star
       (alts
         [space,
          words
            ["的", "该", "此", "任何", "全部", "相关", "设备", "机器", "泵", "真空泵", "系统", "控制柜", "电机", "它",
             "其"]]),
     alts
       [cats [lit "并", opt (lit "且")], cats [lit "或", opt (lit "者")], words ["以及", "和", "也", "、"]],
     star (alts [space, words ["也", "再", "再次", "重新", "直接", "立即", "临时", "暂时", "自行"]]), finish]

def SAFE_ENGLISH_COORDINATION : Regex :=
  cats
    [start,
     opt
       (cats
         [plus space, opt (cats [words ["the", "this", "that", "any"], plus space]),
          englishPanelOrIt]), plus space,
     alts
       [words ["and", "or", "nor"], cats [lit "as", plus space, lit "well", plus space, lit "as"]],
     plus space,
     star (cats [words ["also", "again", "directly", "immediately", "temporarily"], plus space]),
     finish]

inductive DangerousActionSafety where
  | prefixed
  | suffixed
  | coordinated
  deriving DecidableEq, Repr

def classifyDangerousActionSafety (clause : List Char) (matchStart matchEnd : Nat)
    (previousSafeMatchEnd : Option Nat) : Option DangerousActionSafety :=
  let before := clause.take matchStart
  let after := clause.drop matchEnd
  if test DIRECT_CHINESE_NEGATION before || test DIRECT_ENGLISH_NEGATION before then some .prefixed
  else if test SAFETY_SUFFIX after then some .suffixed
  else
    match previousSafeMatchEnd with
    | none => none
    | some safeEnd =>
        let bridge := (clause.take matchStart).drop safeEnd
        if test SAFE_CHINESE_COORDINATION bridge || test SAFE_ENGLISH_COORDINATION bridge then
          some .coordinated
        else none

/-- The loop over the matches of one clause: whether one of them is not safe. -/
def unsafeMatches (clause : List Char) : Option Nat → List (Nat × Nat) → Bool
  | _, [] => false
  | previousSafeMatchEnd, (matchStart, matchEnd) :: rest =>
      match classifyDangerousActionSafety clause matchStart matchEnd previousSafeMatchEnd with
      | none => true
      | some .suffixed => unsafeMatches clause none rest
      | some _ => unsafeMatches clause (some matchEnd) rest

/-- `[。！？!?;；，,\n]`. -/
def isClauseBoundary (c : Char) : Bool := "。！？!?;；，,\n".toList.contains c

/-- A run of boundaries makes empty clauses here; they have no match. -/
def hasUnsafeHighRiskAction (answer : List Char) : Bool :=
  (answer.splitOnP isClauseBoundary).any fun clause =>
    unsafeMatches clause none (execAll HIGH_RISK_DANGEROUS_ACTION_PATTERN clause)

/-! ## 3. Professionals, stopping and isolating -/

def professional : Regex :=
  words ["设备制造商", "制造商", "设备厂家", "厂家", "本单位安全负责人", "安全负责人", "合格人员", "具备资质的现场人员", "专业人员"]

def englishProfessional : Regex :=
  alts
    [cats
       [wordBoundary, opt (cats [lit "equipment", plus space]), lit "manufacturer", wordBoundary],
     cats [wordBoundary, lit "equipment", plus space, lit "maker", wordBoundary],
     cats
       [wordBoundary, lit "safety", plus space, words ["officer", "manager", "lead"], wordBoundary],
     cats
       [wordBoundary, lit "qualified", plus space,
        words ["personnel", "person", "technician", "engineer"], wordBoundary],
     cats
       [wordBoundary, lit "certified", plus space, words ["technician", "engineer", "professional"],
        wordBoundary],
     cats [wordBoundary, lit "field", plus space, lit "professional", wordBoundary]]

def contact : Regex := words ["联系", "联络", "咨询", "交由", "转交", "要求", "通知", "报告给", "寻求"]

def englishContact : Regex :=
  alts
    [cats [lit "contact", opt (lit "ing")], cats [lit "consult", opt (lit "ing")],
     cats [lit "notify", opt (lit "ing")], cats [lit "involv", words ["e", "ing"]],
     cats
       [lit "hand", opt (lit "ing"), plus space,
        opt (cats [lit "the", plus space, lit "matter", plus space]), lit "over", plus space,
        lit "to"], cats [lit "escalat", words ["e", "ing"], plus space, lit "to"],
     cats
       [lit "seek", opt (lit "ing"), plus space, words ["help", "assistance"], plus space,
        lit "from"]]

def EXTERNAL_PROFESSIONAL : Regex := alts [professional, englishProfessional]

def EXTERNAL_PROFESSIONAL_CONTACT : Regex :=
  alts
    [cats [contact, gap 20, professional],
     cats [wordBoundary, englishContact, wordBoundary, gap 40, englishProfessional]]

def REJECTS_EXTERNAL_PROFESSIONAL : Regex :=
  alts
    [cats
       [words
          ["不要", "不得", "不可", "无需", "不用", "不必", "切勿", "禁止", "避免", "拒绝", "不建议", "没必要", "没有必要", "不需要"],
        gap 10, contact, gap 20, professional],
     cats [contact, gap 20, professional, gap 12, words ["不建议", "没必要", "没有必要", "不需要", "可以免除"]],
     cats
       [wordBoundary,
        alts
          [cats [lit "do", plus space, lit "not"], lit "don't",
           cats [lit "must", plus space, lit "not"], cats [lit "should", plus space, lit "not"],
           cats [lit "need", plus space, lit "not"],
           cats [lit "no", plus space, lit "need", plus space, lit "to"],
           cats [lit "not", plus space, lit "necessary", plus space, lit "to"],
           words ["never", "avoid"]], plus space, englishContact, wordBoundary, gap 40,
        englishProfessional],
     cats
       [wordBoundary,
        alts
          [cats [lit "contact", opt (lit "ing")], cats [lit "consult", opt (lit "ing")],
           cats [lit "notify", opt (lit "ing")], cats [lit "involv", words ["e", "ing"]]],
        wordBoundary, gap 40, englishProfessional, gap 20, wordBoundary, words ["is", "are"],
        plus space,
        alts
          [cats [lit "not", plus space, words ["recommended", "necessary", "required"]],
           lit "unnecessary"], wordBoundary]]

def REJECTS_EXTERNAL_PROFESSIONAL_REVERSED : Regex :=
  alts
    [cats
       [professional, gap 10,
        words ["不要", "不得", "不可", "无需", "不用", "不必", "切勿", "禁止", "避免", "不建议", "没必要", "没有必要", "不需要"],
        gap 6, opt (lit "再"), words ["联系", "联络", "咨询", "通知", "找", "寻找"]],
     cats
       [words ["不要", "不得", "不可", "无需", "不用", "不必", "切勿", "禁止", "避免", "不建议", "没必要", "没有必要", "不需要"],
        gap 10, opt (lit "再"), words ["找", "寻找"], gap 20, professional],
     cats
       [englishProfessional, gap 24, wordBoundary,
        alts
          [cats [lit "need", opt (lit "s"), plus space, lit "not"],
           cats [words ["do", "does"], plus space, lit "not", plus space, lit "need"],
           cats [lit "should", plus space, lit "not"], cats [lit "must", plus space, lit "not"],
           cats [lit "no", plus space, lit "need", plus space, lit "to"]], plus space,
        opt (cats [lit "to", plus space]), opt (cats [lit "be", plus space]),
        words ["contacted", "consulted", "notified", "involved"], wordBoundary]]

def ISOLATION_KEPT : Regex :=
  cats
    [words ["严禁", "禁止", "不得", "不要", "不可", "切勿", "不应", "不能", "不允许", "避免"],
     lazyUpTo 12 (noneOf "。！？!?;；\n"), words ["解除", "取消", "撤销", "移除"],
     lazyUpTo 8 (noneOf "。！？!?;；\n"), words ["隔离", "锁定", "挂牌"]]

def REJECTS_STOPPING : Regex :=
  alts
    [cats
       [words ["不要", "不得", "不可", "无需", "不用", "不必", "切勿", "禁止", "避免", "拒绝", "不建议", "没必要", "没有必要"],
        gap 8, words ["停机", "停止运行"]],
     cats [words ["可以", "可"], opt (lit "先"), lit "不", gap 8, words ["停机", "停止运行"]],
     cats
       [words ["停机", "停止运行"], gap 8,
        words ["可以不", "可不", "不建议", "没必要", "没有必要", "非必要", "不需要", "会损坏", "会导致损坏"]],
     cats
       [wordBoundary,
        words
          ["no need", "need not", "do not need", "don't need", "not necessary", "unnecessary",
           "do not recommend", "don't recommend", "can skip", "may skip"], gap 20,
        alts
          [words ["shut down", "shutdown"],
           cats
             [lit "stop", opt (lit "ping"), opt (lit " the"), lit " ",
              words ["pump", "equipment", "machine"]]], wordBoundary],
     cats
       [wordBoundary,
        alts
          [words ["shutdown", "shutting down"],
           cats
             [lit "stopping", opt (lit " the"), lit " ", words ["pump", "equipment", "machine"]]],
        gap 20,
        words ["is not necessary", "is unnecessary", "is not recommended", "can be skipped"],
        wordBoundary]]

def REJECTS_ISOLATION : Regex :=
  alts
    [cats
       [words ["不要", "不得", "不可", "无需", "不用", "不必", "切勿", "禁止", "避免", "拒绝", "不建议", "没必要", "没有必要"],
        gap 8, words ["隔离", "切断", "断开", "断电", "断气"],
        opt (cats [gap 12, words ["能源", "电源", "气源", "介质源", "热源"]])],
     cats
       [words ["可以", "可"], opt (lit "先"), lit "不", gap 8, words ["隔离", "切断", "断开", "断电", "断气"],
        opt (cats [gap 12, words ["能源", "电源", "气源", "介质源", "热源"]])],
     cats
       [words ["隔离", "切断", "断开", "断电", "断气"],
        opt (cats [gap 12, words ["能源", "电源", "气源", "介质源", "热源"]]), gap 8,
        words ["可以不", "可不", "不建议", "没必要", "没有必要", "非必要", "不需要", "会损坏", "会导致损坏"]],
     cats
       [wordBoundary,
        words
          ["no need", "need not", "do not need", "don't need", "not necessary", "unnecessary",
           "do not recommend", "don't recommend", "can skip", "may skip"], gap 20,
        words ["isolate", "isolation", "disconnect", "disconnection", "de-energize", "deenergize"],
        gap 12, opt (words ["energy", "power", "electricity", "gas", "media", "heat"]),
        wordBoundary],
     cats
       [wordBoundary,
        alts
          [words ["isolation", "disconnection", "disconnecting", "de-energizing", "deenergizing"],
           cats
             [words ["energy", "power", "electricity", "gas", "media", "heat"], gap 12,
              words ["isolation", "disconnection"]]], gap 20,
        words ["is not necessary", "is unnecessary", "is not recommended", "can be skipped"],
        wordBoundary]]

def STOPS : Regex :=
  alts
    [cats [words ["请", "应", "必须", "立即", "先"], gap 8, words ["停机", "停止运行", "停止设备"]],
     cats [words ["停机", "停止运行"], gap 8, words ["后", "并", "，", "。"]]]

def ISOLATES : Regex :=
  alts
    [cats [words ["隔离", "切断", "断开"], gap 12, words ["能源", "电源", "气源", "介质源", "热源"]],
     cats [words ["锁定", "上锁"], gap 4, words ["挂牌", "能源"]],
     cats [wordBoundary, lit "LOTO", wordBoundary]]

inductive BoundaryRequirement where
  | stop
  | isolate
  | external_professional
  deriving DecidableEq, Repr

section Text

variable [UnicodeTables]

/-- The requirements an answer misses; it is valid if there are none. -/
def validateHighRiskAnswerBoundaries (answer : List Char) : List BoundaryRequirement :=
  let normalized := collapseSpaces (nfkc answer)
  let normalizedForIsolationRejection :=
    replaceAll ISOLATION_KEPT "必须保持能源隔离".toList normalized
  let rejectsStopping := test REJECTS_STOPPING normalized
  let rejectsIsolation := test REJECTS_ISOLATION normalizedForIsolationRejection
  let unsafeContinuation := hasUnsafeHighRiskAction normalized
  let rejectsExternalProfessional :=
    test REJECTS_EXTERNAL_PROFESSIONAL normalized ||
      test REJECTS_EXTERNAL_PROFESSIONAL_REVERSED normalized
  let stop := !unsafeContinuation && !rejectsStopping && test STOPS normalized
  let isolate := !unsafeContinuation && !rejectsIsolation && test ISOLATES normalized
  let externalProfessional :=
    !rejectsExternalProfessional && test EXTERNAL_PROFESSIONAL normalized &&
      test EXTERNAL_PROFESSIONAL_CONTACT normalized
  (if stop then [] else [.stop]) ++ (if isolate then [] else [.isolate]) ++
    (if externalProfessional then [] else [.external_professional])

end Text

end OpenVac.Agent
