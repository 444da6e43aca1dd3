/-
  File:      OpenVac/Agent/ToolRegistry.lean
  Subject:   The tools of a run: the constructor of `ToolRegistry`, server/agent/tool-registry.ts,
             with `hasExplicitParameterTableIntent` of server/agent/artifact-tools.ts.

  * Storage, parsers, services and the timeout are held for later calls and read by no constructor
    here; a definition is a tool's name.
  * The links of a message are numbered `L1`, `L2`, … in their order.
-/
import OpenVac.Agent.ModePolicy
import OpenVac.Agent.VerifiedUrl
import OpenVac.ChatV3.Contracts

namespace OpenVac.Agent

open JsString JsRegex JsUrl ChatV3

/-! ## 1. The constructor -/

/-- `(?:diagnosis\s+report|selection\s+report|inspection\s+checklist)`. -/
def competingEnglishNoun : Regex :=
  alts
    [cats [lit "diagnosis", plus space, lit "report"],
     cats [lit "selection", plus space, lit "report"],
     cats [lit "inspection", plus space, lit "checklist"]]

def PARAMETER_TABLE_REQUESTED : List Regex :=
  [cats
    [opt (words ["请", "帮我", "为我", "我要", "我需要", "现在"]), star space,
     words ["生成", "创建", "制作", "导出", "下载", "整理成", "写一份"], gap 32, lit "参数表"],
   cats [lit "参数表", gap 16, words ["生成", "创建", "制作", "导出", "下载"]],
   cats
    [opt (cats [lit "please", plus space]), englishCreate, gap 48, lit "parameter", plus space,
     lit "table"]]

def COMPETING_ARTIFACT_REQUESTED : List Regex :=
  [cats
    [words ["生成", "创建", "制作", "导出", "下载", "整理成", "写一份"], gap 32,
     words ["诊断报告", "选型报告", "检查清单", "检查表", "独立报告", "单独报告"]],
   cats [competingEnglishNoun, gap 24, englishCreate],
   cats [englishCreate, gap 48, competingEnglishNoun]]

/-- Does the question ask for a parameter table, and for no other document? -/
def hasExplicitParameterTableIntent [UnicodeTables] (question : Text) : Bool :=
  if hasExplicitArtifactIntent question then
    let normalized := trim (nfkc question)
    PARAMETER_TABLE_REQUESTED.any (test · normalized) &&
      !COMPETING_ARTIFACT_REQUESTED.any (test · normalized)
  else false

inductive ArtifactProviderContract where
  | parameter_table
  deriving DecidableEq, Repr

inductive ToolName where
  | search_knowledge
  | open_evidence_excerpt
  | convert_vacuum_units
  | calculate_throughput
  | calculate_effective_pumping_speed
  | estimate_pumpdown_time
  | classify_flow_regime
  | calculate_orifice_or_tube_conductance
  | combine_parallel_pumps
  | estimate_leak_or_outgassing_load
  | read_verified_url
  | search_attachment
  | open_attachment_excerpt
  | analyze_image
  | create_artifact
  deriving DecidableEq, Repr

structure ToolRegistryOptions where
  turnId : RandomUuid
  question : Text
  inputParts : List InputMessagePart
  verifiedUrlReader : Option VerifiedUrlReader

structure ToolRegistry where
  evidence : EvidenceRegistry
  options : Option ToolRegistryOptions
  artifactProviderContract : Option ArtifactProviderContract
  attachmentIds : List Text
  verifiedUrlReader : Option VerifiedUrlReader
  definitions : List ToolName

def baseDefinitions : List ToolName :=
  [.search_knowledge, .open_evidence_excerpt, .convert_vacuum_units, .calculate_throughput,
   .calculate_effective_pumping_speed, .estimate_pumpdown_time, .classify_flow_regime,
   .calculate_orifice_or_tube_conductance, .combine_parallel_pumps,
   .estimate_leak_or_outgassing_load]

def attachmentDefinitions : List ToolName :=
  [.search_attachment, .open_attachment_excerpt, .analyze_image]

/-- `L${sequence}`. -/
def linkIdOf (sequence : Nat) : Text := 'L' :: decimal sequence

/-- The links among the parts, numbered from after a sequence number on. -/
def turnLinksFrom (linkSequence : Nat) : List InputMessagePart → List CurrentTurnLink
  | [] => []
  | .link url label :: rest =>
      ⟨linkIdOf (linkSequence + 1), url, label⟩ :: turnLinksFrom (linkSequence + 1) rest
  | .text _ :: rest | .attachment _ :: rest => turnLinksFrom linkSequence rest

section Host

variable [UnicodeTables] [UrlParser]

/-- `options.verifiedUrlReader`, or a reader over the message's links if it has some. -/
def verifiedUrlReaderOf (options : ToolRegistryOptions) :
    Except VerifiedUrlError (Option VerifiedUrlReader) :=
  match options.verifiedUrlReader with
  | some reader => .ok (some reader)
  | none =>
      match turnLinksFrom 0 options.inputParts with
      | [] => .ok none
      | link :: rest => (VerifiedUrlReader.new options.turnId.text (link :: rest)).map some

/-- `new ToolRegistry(evidence, options)`. -/
def ToolRegistry.new (evidence : EvidenceRegistry) (options : Option ToolRegistryOptions) :
    Except VerifiedUrlError ToolRegistry :=
  match options with
  | none => .ok ⟨evidence, none, none, [], none, baseDefinitions⟩
  | some given => do
      let artifactProviderContract : Option ArtifactProviderContract :=
        if hasExplicitParameterTableIntent given.question then some .parameter_table else none
      let attachmentIds := attachmentIdsOf given.inputParts
      let verifiedUrlReader ← verifiedUrlReaderOf given
      pure
        { evidence := evidence
          options := some given
          artifactProviderContract := artifactProviderContract
          attachmentIds := attachmentIds
          verifiedUrlReader := verifiedUrlReader
          definitions :=
            baseDefinitions ++
              (if verifiedUrlReader.isSome then [.read_verified_url] else []) ++
              (if attachmentIds.isEmpty then [] else attachmentDefinitions) ++
              (if hasExplicitArtifactIntent given.question then [.create_artifact] else []) }

end Host

/-! ## 2. Which messages the constructor takes -/

/-- What the reader asks of an address: at most 2,048 units when written out, no credentials, the
    default port and no query key that carries a secret. -/
def Readable [UrlParser] (url : Text) : Prop :=
  ∃ parsed, UrlParser.parse url = some parsed ∧
    utf16Length parsed.href ≤ MAX_PUBLIC_URL_CHARACTERS ∧ parsed.username = [] ∧
    parsed.password = [] ∧ (parsed.port = [] ∨ parsed.port = "443".toList) ∧
    hasSensitiveUrlParameters parsed = false

/-- An https address is a public one exactly if it is readable. -/
theorem parsePublicHttpsUrl_isSome_iff [UrlParser] {url : Text} {parsed : Url}
    (hparse : UrlParser.parse url = some parsed) (hhttps : parsed.protocol = "https:".toList) :
    (∃ publicUrl, parsePublicHttpsUrl url = some publicUrl) ↔ Readable url := by
  unfold parsePublicHttpsUrl Readable
  rw [hparse]
  dsimp only
  constructor
  · rintro ⟨publicUrl, h⟩
    split at h
    · nomatch h
    · rename_i hno
      rw [not_or, not_or, Nat.not_lt, Bool.not_eq_false, Bool.not_eq_true] at hno
      obtain ⟨hlength, hplain, hkeys⟩ := hno
      simp only [plainHttps, Bool.and_eq_true, Bool.or_eq_true, beq_iff_eq, List.isEmpty_iff]
        at hplain
      exact ⟨parsed, rfl, hlength, hplain.1.1.2, hplain.1.2, hplain.2, hkeys⟩
  · rintro ⟨other, hother, hlength, huser, hpassword, hport, hkeys⟩
    obtain rfl := Option.some.inj hother
    have hplain : plainHttps parsed = true := by
      simp only [plainHttps, Bool.and_eq_true, Bool.or_eq_true, beq_iff_eq, List.isEmpty_iff]
      exact ⟨⟨⟨hhttps, huser⟩, hpassword⟩, hport⟩
    refine ⟨parsed.withoutHash, if_neg ?_⟩
    rw [hplain, hkeys]
    rintro (h | h | h)
    · omega
    · nomatch h
    · nomatch h

/-! ### The numbers of the links -/

theorem mem_turnLinksFrom {linkSequence : Nat} {parts : List InputMessagePart}
    {link : CurrentTurnLink} (h : link ∈ turnLinksFrom linkSequence parts) :
    ∃ n, linkSequence < n ∧ n ≤ linkSequence + parts.length ∧ link.linkId = linkIdOf n := by
  induction parts generalizing linkSequence with
  | nil => nomatch h
  | cons part rest ih =>
    rw [List.length_cons]
    cases part with
    | text text =>
      obtain ⟨n, hlt, hle, hid⟩ := ih h
      exact ⟨n, hlt, by omega, hid⟩
    | attachment attachmentId =>
      obtain ⟨n, hlt, hle, hid⟩ := ih h
      exact ⟨n, hlt, by omega, hid⟩
    | link url label =>
      rcases List.mem_cons.mp h with rfl | h
      · exact ⟨linkSequence + 1, by omega, by omega, rfl⟩
      · obtain ⟨n, hlt, hle, hid⟩ := ih h
        exact ⟨n, by omega, by omega, hid⟩

theorem turnLinksFrom_length_le (linkSequence : Nat) (parts : List InputMessagePart) :
    (turnLinksFrom linkSequence parts).length ≤ parts.length := by
  induction parts generalizing linkSequence with
  | nil => exact Nat.le_refl 0
  | cons part rest ih =>
    rw [List.length_cons]
    cases part with
    | text text => exact Nat.le_succ_of_le (ih linkSequence)
    | attachment attachmentId => exact Nat.le_succ_of_le (ih linkSequence)
    | link url label => exact Nat.succ_le_succ (ih (linkSequence + 1))

theorem linkIdOf_injective {m n : Nat} (h : linkIdOf m = linkIdOf n) : m = n := by
  have hdigits : ∀ k, linkIdOf k = 'L' :: Nat.toDigits 10 k := fun k =>
    congrArg ('L' :: ·) Nat.toList_repr
  rw [hdigits, hdigits] at h
  calc
    m = Nat.ofDigitChars 10 (Nat.toDigits 10 m) 0 := Nat.ofDigitChars_ten_toDigits.symm
    _ = Nat.ofDigitChars 10 (Nat.toDigits 10 n) 0 := by rw [(List.cons.inj h).2]
    _ = n := Nat.ofDigitChars_ten_toDigits

theorem nodup_turnLinksFrom (linkSequence : Nat) (parts : List InputMessagePart) :
    ((turnLinksFrom linkSequence parts).map (·.linkId)).Nodup := by
  induction parts generalizing linkSequence with
  | nil => exact List.nodup_nil
  | cons part rest ih =>
    cases part with
    | text text => exact ih linkSequence
    | attachment attachmentId => exact ih linkSequence
    | link url label =>
      unfold turnLinksFrom
      rw [List.map_cons, List.nodup_cons]
      refine ⟨?_, ih (linkSequence + 1)⟩
      intro hmem
      obtain ⟨link, hlink, hid⟩ := List.mem_map.mp hmem
      obtain ⟨n, hlt, -, hn⟩ := mem_turnLinksFrom hlink
      have hsame := linkIdOf_injective (hn.symm.trans hid)
      omega

/-- The addresses of the numbered links are those of the link parts. -/
theorem turnLinksFrom_urls (linkSequence : Nat) (parts : List InputMessagePart) (P : Text → Prop) :
    (∀ link ∈ turnLinksFrom linkSequence parts, P link.url) ↔
      ∀ url label, InputMessagePart.link url label ∈ parts → P url := by
  induction parts generalizing linkSequence with
  | nil => simp [turnLinksFrom]
  | cons part rest ih =>
    cases part with
    | text text => simpa [turnLinksFrom] using ih linkSequence
    | attachment attachmentId => simpa [turnLinksFrom] using ih linkSequence
    | link url label =>
      unfold turnLinksFrom
      rw [List.forall_mem_cons, ih (linkSequence + 1)]
      constructor
      · rintro ⟨hhead, hrest⟩ other otherLabel hmem
        rcases List.mem_cons.mp hmem with h | h
        · cases h
          exact hhead
        · exact hrest other otherLabel h
      · intro h
        exact ⟨h url label List.mem_cons_self,
          fun other otherLabel hmem => h other otherLabel (List.mem_cons_of_mem _ hmem)⟩

/-- The numbers up to sixteen give plain identifiers. -/
theorem linkIdOf_plain : ∀ n ≤ MAX_LINKS_PER_TURN,
    (linkIdOf n).all isPlain = true ∧ (linkIdOf n).length ≤ MAX_LINK_ID_CHARACTERS := by
  decide

/-! ### What the request check establishes -/

/-- What an array schema accepts: as many items as it allows, each accepted by the item's schema. -/
theorem arrayOf_ok {α : Type} {item : Json → Option α} {min max : Nat} {value : Json} {xs : List α}
    (h : arrayOf item min max value = some xs) :
    min ≤ xs.length ∧ xs.length ≤ max ∧ ∀ x ∈ xs, ∃ json, item json = some x := by
  have hitems : ∀ {items : List Json} {ys : List α}, items.mapM item = some ys →
      ys.length = items.length ∧ ∀ y ∈ ys, ∃ json, item json = some y := by
    intro items
    induction items with
    | nil =>
      intro ys hys
      obtain rfl := Option.some.inj hys
      exact ⟨rfl, fun _ hy => absurd hy List.not_mem_nil⟩
    | cons json rest ih =>
      intro ys hys
      rw [List.mapM_cons] at hys
      obtain ⟨y, hy, hys⟩ := Option.bind_eq_some_iff.mp hys
      obtain ⟨more, hmore, hys⟩ := Option.bind_eq_some_iff.mp hys
      obtain rfl := Option.some.inj hys
      obtain ⟨hlength, hall⟩ := ih hmore
      refine ⟨by rw [List.length_cons, List.length_cons, hlength], ?_⟩
      rw [List.forall_mem_cons]
      exact ⟨⟨json, hy⟩, hall⟩
  unfold arrayOf at h
  split at h
  · rename_i items
    by_cases hlength : min ≤ items.length ∧ items.length ≤ max
    · rw [if_pos hlength] at h
      obtain ⟨heq, hall⟩ := hitems h
      rw [heq]
      exact ⟨hlength.1, hlength.2, hall⟩
    · rw [if_neg hlength] at h
      nomatch h
  · nomatch h

section Host

variable [SchemaLibrary] [UrlParser]

theorem linkUrl_https {value : Json} {url : Text} (h : linkUrl value = some url) :
    ∃ parsed, UrlParser.parse url = some parsed ∧ parsed.protocol = "https:".toList := by
  unfold linkUrl at h
  split at h
  · rename_i text
    dsimp only at h
    by_cases hshape : SchemaLibrary.isUrl (trim text) = true ∧ utf16Length (trim text) ≤ 2048
    · rw [if_pos hshape] at h
      cases hp : UrlParser.parse (trim text) with
      | none =>
        rw [hp] at h
        nomatch h
      | some parsed =>
        rw [hp] at h
        dsimp only at h
        split at h
        · rename_i hok
          obtain rfl := Option.some.inj h
          exact ⟨parsed, hp, hok.1⟩
        · nomatch h
    · rw [if_neg hshape] at h
      nomatch h
  · nomatch h

/-- A link part has passed the check of its address. -/
theorem inputMessagePartSchema_link {value : Json} {url : Text} {label : Option Text}
    (h : inputMessagePartSchema value = some (.link url label)) :
    ∃ parsed, UrlParser.parse url = some parsed ∧ parsed.protocol = "https:".toList := by
  unfold inputMessagePartSchema at h
  split at h
  · rename_i fields
    obtain ⟨type, -, h⟩ := Option.bind_eq_some_iff.mp h
    cases type with
    | text =>
      obtain ⟨text, -, h⟩ := Option.bind_eq_some_iff.mp h
      nomatch Option.some.inj h
    | attachment =>
      obtain ⟨attachmentId, -, h⟩ := Option.bind_eq_some_iff.mp h
      nomatch Option.some.inj h
    | link =>
      obtain ⟨checked, hurl, h⟩ := Option.bind_eq_some_iff.mp h
      obtain ⟨checkedLabel, -, h⟩ := Option.bind_eq_some_iff.mp h
      cases Option.some.inj h
      obtain ⟨text, -, hurl⟩ := Option.bind_eq_some_iff.mp hurl
      exact linkUrl_https hurl
  · nomatch h

/-- **An accepted message**: at most sixteen parts, and every link is an https address. -/
theorem inputMessagePartsSchema_ok {value : Json} {parts : List InputMessagePart}
    (h : inputMessagePartsSchema value = some parts) :
    parts.length ≤ MAX_LINKS_PER_TURN ∧ ∀ url label, .link url label ∈ parts →
      ∃ parsed, UrlParser.parse url = some parsed ∧ parsed.protocol = "https:".toList := by
  unfold inputMessagePartsSchema at h
  obtain ⟨accepted, harray, h⟩ := Option.bind_eq_some_iff.mp h
  split at h
  · cases Option.some.inj h
    obtain ⟨-, hlength, hall⟩ := arrayOf_ok harray
    refine ⟨hlength, ?_⟩
    intro url label hmem
    obtain ⟨json, hitem⟩ := hall _ hmem
    exact inputMessagePartSchema_link hitem
  · nomatch h

end Host

/-! ## 3. Setting up the tools of an accepted message -/

/-- A run's own identifier is a plain text. -/
theorem requiredText_uuid [UnicodeTables] (turnId : RandomUuid) :
    requiredText turnId.text 240 "turnId" = .ok turnId.text := by
  have hlength := turnId.length_eq
  refine requiredText_of_plain turnId.plain ?_ (by omega) "turnId"
  intro h
  rw [h] at hlength
  nomatch hlength

section Host

variable [UnicodeTables] [SchemaLibrary] [UrlParser]

/-- The reader over the links of an accepted message. -/
theorem verifiedUrlReaderOf_ok_iff {turnId : RandomUuid} {question : Text} {value : Json}
    {parts : List InputMessagePart} (haccepted : inputMessagePartsSchema value = some parts) :
    (∃ reader, verifiedUrlReaderOf ⟨turnId, question, parts, none⟩ = .ok reader) ↔
      ∀ url label, .link url label ∈ parts → Readable url := by
  obtain ⟨hcount, hhttps⟩ := inputMessagePartsSchema_ok haccepted
  have hmem : ∀ link ∈ turnLinksFrom 0 parts, link.linkId.all isPlain = true ∧
      link.linkId ≠ [] ∧ link.linkId.length ≤ MAX_LINK_ID_CHARACTERS := by
    intro link hlink
    obtain ⟨n, -, hle, hid⟩ := mem_turnLinksFrom hlink
    obtain ⟨hplain, hlength⟩ := linkIdOf_plain n (by omega)
    rw [hid]
    exact ⟨hplain, List.cons_ne_nil _ _, hlength⟩
  have hloop := @addLinks_ok_iff _ _ _ [] hmem (nodup_turnLinksFrom 0 parts)
    (fun _ _ _ h => absurd h List.not_mem_nil)
  rw [turnLinksFrom_urls 0 parts fun url => ∃ publicUrl, parsePublicHttpsUrl url = some publicUrl]
    at hloop
  have hreadable : (∀ url label, .link url label ∈ parts →
      ∃ publicUrl, parsePublicHttpsUrl url = some publicUrl) ↔
      ∀ url label, .link url label ∈ parts → Readable url := by
    refine forall_congr' fun url => forall_congr' fun label => forall_congr' fun hpart => ?_
    obtain ⟨parsed, hparse, hprotocol⟩ := hhttps url label hpart
    exact parsePublicHttpsUrl_isSome_iff hparse hprotocol
  rw [← hreadable, ← hloop]
  unfold verifiedUrlReaderOf
  dsimp only
  cases hlinks : turnLinksFrom 0 parts with
  | nil => exact ⟨fun _ => ⟨[], rfl⟩, fun _ => ⟨none, rfl⟩⟩
  | cons link rest =>
    have hroom : (link :: rest).length ≤ MAX_LINKS_PER_TURN := by
      have hle := turnLinksFrom_length_le 0 parts
      rw [hlinks] at hle
      omega
    dsimp only
    rw [VerifiedUrlReader.new_eq (requiredText_uuid turnId) hroom]
    cases htable : (link :: rest).foldlM addLink [] with
    | error e => simp [Except.map]
    | ok table => simp [Except.map]

/-- **Tool setup**: the tools of a run over an accepted message can be set up exactly if every link
    of the message is readable. -/
theorem toolRegistry_ok_iff {value : Json} {parts : List InputMessagePart}
    (haccepted : inputMessagePartsSchema value = some parts) (evidence : EvidenceRegistry)
    (turnId : RandomUuid) (question : Text) :
    (∃ registry, ToolRegistry.new evidence (some ⟨turnId, question, parts, none⟩) = .ok registry) ↔
      ∀ url label, .link url label ∈ parts → Readable url := by
  rw [← @verifiedUrlReaderOf_ok_iff _ _ _ turnId question _ _ haccepted]
  unfold ToolRegistry.new
  dsimp only
  cases verifiedUrlReaderOf ⟨turnId, question, parts, none⟩ with
  | error e =>
    constructor
    · rintro ⟨registry, h⟩
      nomatch h
    · rintro ⟨reader, h⟩
      nomatch h
  | ok reader => exact ⟨fun _ => ⟨reader, rfl⟩, fun _ => ⟨_, rfl⟩⟩

end Host

/-! ### Two manuals on one host -/

def manualUrl (origin port : String) : Url :=
  { href := (origin ++ "/manual").toList
    protocol := "https:".toList
    username := []
    password := []
    hostname := "pump.example".toList
    port := port.toList
    searchKeys := [] }

/-- A parser of two addresses: one on the default port and one on port 8443. -/
abbrev manualUrls : UrlParser :=
  ⟨fun text =>
    if text = "https://pump.example/manual".toList then some (manualUrl "https://pump.example" "")
    else if text = "https://pump.example:8443/manual".toList then
      some (manualUrl "https://pump.example:8443" "8443")
    else none⟩

def linkMessage (url : String) : Json :=
  .arr [.obj [("type".toList, .str "link".toList), ("url".toList, .str url.toList)]]

def someTurn : RandomUuid where
  text := "3f2504e0-4f89-41d3-9a0c-0305e82c3301".toList
  length_eq := by decide
  chars := by decide

theorem toolRegistry_ok_manual :
    let _ : UnicodeTables := ⟨id, id⟩
    let _ : SchemaLibrary := ⟨fun _ => true, fun _ => true, fun _ => []⟩
    let _ : UrlParser := manualUrls
    ∃ registry,
      ToolRegistry.new [] (some ⟨someTurn, "请解读说明书".toList,
        [.link "https://pump.example/manual".toList none], none⟩) = .ok registry := by
  intro _ _ _
  have haccepted : inputMessagePartsSchema (linkMessage "https://pump.example/manual") =
      some [.link "https://pump.example/manual".toList none] := by
    decide +kernel
  refine (toolRegistry_ok_iff haccepted [] someTurn "请解读说明书".toList).mpr ?_
  intro url label hpart
  cases List.mem_singleton.mp hpart
  exact ⟨manualUrl "https://pump.example" "", by decide +kernel, by decide +kernel, rfl, rfl,
    Or.inl rfl, by decide +kernel⟩

/-- A link to port 8443 passes the request check, and the tools of its run cannot be set up. -/
theorem toolRegistry_fails_on_port :
    ¬ ∀ [UnicodeTables] [SchemaLibrary] [UrlParser] (value : Json) (parts : List InputMessagePart),
      inputMessagePartsSchema value = some parts →
        ∀ (evidence : EvidenceRegistry) (turnId : RandomUuid) (question : Text),
          ∃ registry,
            ToolRegistry.new evidence (some ⟨turnId, question, parts, none⟩) = .ok registry := by
  intro h
  let _ : UnicodeTables := ⟨id, id⟩
  let _ : SchemaLibrary := ⟨fun _ => true, fun _ => true, fun _ => []⟩
  let _ : UrlParser := manualUrls
  have haccepted : inputMessagePartsSchema (linkMessage "https://pump.example:8443/manual") =
      some [.link "https://pump.example:8443/manual".toList none] := by
    decide +kernel
  obtain ⟨registry, hregistry⟩ := h _ _ haccepted [] someTurn "请解读说明书".toList
  have hfails : (ToolRegistry.new [] (some ⟨someTurn, "请解读说明书".toList,
      [.link "https://pump.example:8443/manual".toList none], none⟩)).isOk = false := by
    decide +kernel
  rw [hregistry] at hfails
  nomatch hfails

end OpenVac.Agent
