/-
  File:      OpenVac/Providers/DocMind.lean
  Subject:   Results of the document parser: `getResult` and `groupLayoutsByPage` of
             server/providers/docmind.ts.

  * `Service` -- a parse service and the layouts it holds.
  * `fetchFrom` -- the requests, one after the other, and the layouts they bring.
  * `groupLayoutsByPage` -- the layouts in the order of their index, page by page.
  * `getResult` -- the requests made and the document or the error.
-/
import Mathlib.Data.List.Sort
import OpenVac.Lib.CodePoints
import OpenVac.Lib.JsMap

namespace OpenVac.Providers.DocMind

/-! ## 1. Layouts -/

/-- The numbers of the host that an answer can hold. None is NaN, and 0 and -0 are one, so
    `left - right` has the sign of the comparison; `number + 1` is what the host makes of it, where
    large numbers can meet. -/
class HostNumbers (ν : Type) extends LinearOrder ν where
  ofNat : Nat → ν
  plusOne : ν → ν
  zero_plusOne : plusOne (ofNat 0) = ofNat 1

open HostNumbers

/-- A record of an answer: what its keys hold, where it is a number or a string. -/
structure Layout (ν : Type) where
  pageNum : Option ν
  index : Option ν
  llmResult : Option Points
  markdownContent : Option Points
  markdown : Option Points
  content : Option Points
  text : Option Points
  deriving DecidableEq

/-- The first string that is not empty, of those under some keys. -/
def pickString (values : List (Option Points)) : Option Points :=
  values.findSome? fun value => value.filter fun s => !s.isEmpty

/-- `pickString(layout, ["llmResult", "markdownContent", "markdown", "content", "text"])`. -/
def Layout.pick {ν : Type} (layout : Layout ν) : Option Points :=
  pickString [layout.llmResult, layout.markdownContent, layout.markdown, layout.content, layout.text]

def extractLayoutText {ν : Type} (layout : Layout ν) : Points :=
  Points.trim (layout.pick.getD [])

/-- What `getResult` keeps of a layout. -/
def Layout.kept {ν : Type} (record : Layout ν) (markdown : Points) : Layout ν :=
  { pageNum := record.pageNum
    index := record.index
    llmResult := none
    markdownContent := none
    markdown := some markdown
    content := none
    text := none }

/-- `Buffer.byteLength(s, "utf8")`; a surrogate without a partner is written as U+FFFD. -/
def byteLength (s : Points) : Nat := (s.map fun
  | .scalar c => c.utf8Size
  | .surrogate _ => 3).sum

/-! ## 2. Answers -/

/-- A body with the layouts and the texts in its `data` and in itself. -/
structure Response (ν : Type) where
  dataLayouts : Option (List (Layout ν))
  bodyLayouts : Option (List (Layout ν))
  dataMarkdown : Option Points
  dataContent : Option Points
  bodyMarkdown : Option Points
  bodyContent : Option Points

def Response.page {ν : Type} (body : Response ν) : List (Layout ν) :=
  match body.dataLayouts with
  | some layouts => layouts
  | none => body.bodyLayouts.getD []

structure Request where
  layoutNum : Nat
  layoutStepSize : Nat
  deriving DecidableEq, Repr

/-- **A parse service**: it serves slices of the layouts it holds. -/
structure Service (ν : Type) where
  layouts : List (Layout ν)
  getDocParserResult : Request → Response ν
  serves : ∀ request, (getDocParserResult request).page =
    (layouts.drop request.layoutNum).take request.layoutStepSize

/-! ## 3. Limits -/

/-- The limits of a parser. -/
structure Limits where
  maxResultRequests : Nat := 64
  maxLayouts : Nat := 20000
  maxPages : Nat := 500
  maxTextBytes : Nat := 5 * 1024 * 1024
  deriving DecidableEq, Repr

structure ProviderResponseError where
  provider : String
  message : String
  deriving DecidableEq, Repr

def PROVIDER_ID : String := "alibaba-docmind"

namespace Limits

variable (limits : Limits)

def layoutsExceeded : ProviderResponseError :=
  ⟨PROVIDER_ID, "DocMind result exceeds the " ++ toString limits.maxLayouts ++ "-layout limit."⟩

def textExceeded : ProviderResponseError :=
  ⟨PROVIDER_ID, "DocMind result exceeds the " ++ toString limits.maxTextBytes ++ "-byte text limit."⟩

def requestsExceeded : ProviderResponseError :=
  ⟨PROVIDER_ID, "DocMind result exceeded the " ++ toString limits.maxResultRequests ++
    "-request pagination limit."⟩

def pagesExceeded : ProviderResponseError :=
  ⟨PROVIDER_ID, "DocMind result exceeds the " ++ toString limits.maxPages ++ "-page limit."⟩

end Limits

/-! ## 4. Pagination -/

def layoutStepSize : Nat := 500

section Fetch

variable {ν : Type} (limits : Limits)

/-- The loop over the layouts of one answer, with the bytes and the layouts so far. -/
def collectLayouts : Nat → List (Layout ν) → List (Layout ν) →
    Except ProviderResponseError (Nat × List (Layout ν))
  | textBytes, layouts, [] => .ok (textBytes, layouts)
  | textBytes, layouts, record :: rest =>
      let markdown := extractLayoutText record
      let textBytes := textBytes + byteLength markdown
      if limits.maxTextBytes < textBytes then .error limits.textExceeded
      else collectLayouts textBytes (layouts ++ [record.kept markdown]) rest

/-- The requests made and, if no limit was met, the layouts and the last body. -/
structure Fetched (ν : Type) where
  requests : List Request
  outcome : Except ProviderResponseError (List (Layout ν) × Response ν)

/-- The loop over the requests, with those that are left. -/
def fetchFrom (getResult : Request → Response ν) : Nat → Nat → Nat → List (Layout ν) → Fetched ν
  | 0, _, _, _ => ⟨[], .error limits.requestsExceeded⟩
  | left + 1, layoutNum, textBytes, layouts =>
      let request : Request := ⟨layoutNum, layoutStepSize⟩
      let body := getResult request
      let page := body.page
      if limits.maxLayouts < layouts.length + page.length then
        ⟨[request], .error limits.layoutsExceeded⟩
      else
        match collectLayouts limits textBytes layouts page with
        | .error error => ⟨[request], .error error⟩
        | .ok (textBytes, layouts) =>
            if page.length < layoutStepSize then ⟨[request], .ok (layouts, body)⟩
            else
              let more := fetchFrom getResult left (layoutNum + page.length) textBytes layouts
              ⟨request :: more.requests, more.outcome⟩

end Fetch

/-! ## 5. Pages -/

/-- What the map holds of a page. -/
structure PageLayouts (ν : Type) where
  markdown : List Points
  layouts : List (Option ν × Option ν)

/-- A page; `visualLayoutInfo` has the index and the page of its layouts. -/
structure ParsedDocumentPage (ν : Type) where
  pageNumber : Option ν
  markdown : Points
  visualLayoutInfo : Option (List (Option ν × Option ν))
  deriving DecidableEq

def blankLine : Points := ['\n', '\n']

section Pages

variable {ν : Type} [HostNumbers ν]

/-- `left.layout.index`, or the place of a layout without one. -/
def sortIndex (entry : Layout ν × Nat) : ν := entry.1.index.getD (ofNat entry.2)

def Layout.pageNumber (layout : Layout ν) : ν := plusOne (layout.pageNum.getD (ofNat 0))

/-- One round of the loop over the layouts. -/
def addToPage (grouped : JsMap ν (PageLayouts ν)) (layout : Layout ν) : JsMap ν (PageLayouts ν) :=
  let current := (grouped.get layout.pageNumber).getD ⟨[], []⟩
  grouped.set layout.pageNumber
    { markdown :=
        match layout.pick with
        | some markdown => current.markdown ++ [Points.trim markdown]
        | none => current.markdown
      layouts := current.layouts ++ [(layout.index, layout.pageNum)] }

def groupFrom (limits : Limits) : JsMap ν (PageLayouts ν) → List (Layout ν) →
    Except ProviderResponseError (JsMap ν (PageLayouts ν))
  | grouped, [] => .ok grouped
  | grouped, layout :: rest =>
      let grouped := addToPage grouped layout
      if limits.maxPages < grouped.length then .error limits.pagesExceeded
      else groupFrom limits grouped rest

def toPage (entry : ν × PageLayouts ν) : ParsedDocumentPage ν :=
  { pageNumber := some entry.1
    markdown := List.intercalate blankLine (entry.2.markdown.filter fun text => !text.isEmpty)
    visualLayoutInfo := some entry.2.layouts }

def groupLayoutsByPage (limits : Limits) (layouts : List (Layout ν)) :
    Except ProviderResponseError (List (ParsedDocumentPage ν)) :=
  let ordered := layouts.zipIdx.insertionSort fun left right => sortIndex left ≤ sortIndex right
  (groupFrom limits [] (ordered.map (·.1))).map (·.map toPage)

/-! ## 6. Results -/

/-- The page of a document without layouts, from the texts of the last body. -/
def wholePage (limits : Limits) (lastBody : Response ν) :
    Except ProviderResponseError (List (ParsedDocumentPage ν)) :=
  match (pickString [lastBody.dataMarkdown, lastBody.dataContent]).or
      (pickString [lastBody.bodyMarkdown, lastBody.bodyContent]) with
  | none => .ok []
  | some markdown =>
      if limits.maxTextBytes < byteLength markdown then .error limits.textExceeded
      else .ok [{ pageNumber := none, markdown := markdown, visualLayoutInfo := none }]

/-- The pages of the layouts that were fetched. -/
def documentPages (limits : Limits) (layouts : List (Layout ν)) (lastBody : Response ν) :
    Except ProviderResponseError (List (ParsedDocumentPage ν)) :=
  match groupLayoutsByPage limits layouts with
  | .error error => .error error
  | .ok [] => wholePage limits lastBody
  | .ok pages => .ok pages

/-- The requests made and how the call ends. -/
structure Result (ν : Type) where
  requests : List Request
  pages : Except ProviderResponseError (List (ParsedDocumentPage ν))

def getResult (limits : Limits) (service : Service ν) : Result ν :=
  let fetched := fetchFrom limits service.getDocParserResult limits.maxResultRequests 0 0 []
  { requests := fetched.requests
    pages :=
      match fetched.outcome with
      | .error error => .error error
      | .ok (layouts, lastBody) => documentPages limits layouts lastBody }

end Pages

end OpenVac.Providers.DocMind
