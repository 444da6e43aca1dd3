/-
  File:      OpenVac/Providers/DocMindPages.lean
  Subject:   A document is whole: what `getResult` makes of the layouts that a service holds.

  * `Complete`, `Exceeded` -- a whole document, and the limits a service can be beyond.
  * `fetchFrom_spec` -- the requests bring all layouts, or a limit stands in the way.
  * `Grouping` -- what the map holds after some layouts; `Grouping.add` for one more.
  * `groupLayoutsByPage_spec` -- the pages of the layouts.
  * `result_complete` -- a bounded number of requests, and a whole document or a limit.
-/
import OpenVac.Lib.StableSort
import OpenVac.Providers.DocMind

namespace OpenVac.Providers.DocMind

open HostNumbers

/-! ## 1. Whole documents -/

section Documents

variable {ν : Type}

/-- The bytes of the texts of some layouts. -/
def textSize (layouts : List (Layout ν)) : Nat :=
  (layouts.map fun layout => byteLength (extractLayoutText layout)).sum

variable [HostNumbers ν]

/-- The page a layout stands on. -/
def underPage (layout : Layout ν) : ν :=
  match layout.pageNum with
  | some number => plusOne number
  | none => ofNat 1

/-- By index, and those of one index as they were served. -/
def Before (left right : Layout ν × Nat) : Prop :=
  sortIndex left < sortIndex right ∨ sortIndex left = sortIndex right ∧ left.2 < right.2

/-- The texts of a page, of layouts in order; one for each layout that has any. -/
def pageTexts (number : ν) (layouts : List (Layout ν)) : List Points :=
  ((layouts.filter fun layout => underPage layout = number).map extractLayoutText).filter
    fun text => !text.isEmpty

/-- **A whole document**: the pages have distinct numbers, and each has the texts of its layouts,
    of every one once and in order. -/
structure Complete (layouts : List (Layout ν)) (pages : List (ParsedDocumentPage ν)) : Prop where
  distinct : (pages.map (·.pageNumber)).Nodup
  texts : ∃ ordered : List (Layout ν × Nat), ordered.Perm layouts.zipIdx ∧
    ordered.Pairwise Before ∧
    ∀ page ∈ pages, ∀ number, page.pageNumber = some number →
      page.markdown = List.intercalate blankLine (pageTexts number (ordered.map (·.1)))
  covers : ∀ layout ∈ layouts, ∃ page ∈ pages, page.pageNumber = some (underPage layout)
  only : layouts ≠ [] →
    ∀ page ∈ pages, ∃ layout ∈ layouts, page.pageNumber = some (underPage layout)

/-- The limits that layouts are beyond, each with its error. Without layouts there can be a text of
    its own, which is as long as it is. -/
inductive Exceeded (limits : Limits) (layouts : List (Layout ν)) : ProviderResponseError → Prop
  where
  | layouts (h : limits.maxLayouts < layouts.length) :
      Exceeded limits layouts limits.layoutsExceeded
  | text (h : limits.maxTextBytes < textSize layouts) : Exceeded limits layouts limits.textExceeded
  | wholeText (h : layouts = []) : Exceeded limits layouts limits.textExceeded
  | pages (h : limits.maxPages < (layouts.map underPage).eraseDups.length) :
      Exceeded limits layouts limits.pagesExceeded
  | requests (h : limits.maxResultRequests * layoutStepSize ≤ layouts.length) :
      Exceeded limits layouts limits.requestsExceeded

end Documents

/-! ## 2. Layouts that are kept -/

section Kept

variable {ν : Type}

/-- What `getResult` keeps of a layout, with its text. -/
def keep (record : Layout ν) : Layout ν := record.kept (extractLayoutText record)

theorem pick_kept (record : Layout ν) (markdown : Points) :
    (record.kept markdown).pick = if markdown = [] then none else some markdown := by
  cases markdown with
  | nil => rfl
  | cons c rest => rfl

/-- The text of what is kept is the text. -/
@[simp] theorem extractLayoutText_keep (record : Layout ν) :
    extractLayoutText (keep record) = extractLayoutText record := by
  have htrim : Points.trim (extractLayoutText record) = extractLayoutText record :=
    Points.trim_trim _
  show Points.trim (((record.kept (extractLayoutText record)).pick).getD []) =
    extractLayoutText record
  rw [pick_kept]
  by_cases hempty : extractLayoutText record = []
  · rw [if_pos hempty, hempty]
    rfl
  · rw [if_neg hempty]
    exact htrim

/-- What the loop over the layouts puts on a page for one of them, if anything. -/
def pickedText (layout : Layout ν) : Option Points := layout.pick.map Points.trim

/-- The texts that the loop over the layouts collects, but for empty ones. -/
theorem filter_picked (layouts : List (Layout ν)) :
    (layouts.filterMap pickedText).filter (fun text => !text.isEmpty) =
      (layouts.map extractLayoutText).filter fun text => !text.isEmpty := by
  induction layouts with
  | nil => rfl
  | cons layout rest ih =>
    have htext : extractLayoutText layout = (pickedText layout).getD [] := by
      unfold extractLayoutText pickedText
      cases layout.pick with
      | none => rfl
      | some markdown => rfl
    cases hpick : pickedText layout with
    | none =>
      rw [hpick] at htext
      rw [List.filterMap_cons_none hpick, List.map_cons, htext, ih]
      rfl
    | some text =>
      rw [hpick] at htext
      rw [List.filterMap_cons_some hpick, List.map_cons, htext, List.filter_cons,
        List.filter_cons, ih]
      rfl

theorem textSize_append (left right : List (Layout ν)) :
    textSize (left ++ right) = textSize left + textSize right := by
  unfold textSize
  rw [List.map_append, List.sum_append]

theorem textSize_cons (record : Layout ν) (rest : List (Layout ν)) :
    textSize (record :: rest) = byteLength (extractLayoutText record) + textSize rest := by
  unfold textSize
  rw [List.map_cons, List.sum_cons]

theorem textSize_take_le (n : Nat) (layouts : List (Layout ν)) :
    textSize (layouts.take n) ≤ textSize layouts := by
  have hsplit := textSize_append (layouts.take n) (layouts.drop n)
  rw [List.take_append_drop] at hsplit
  omega

variable [HostNumbers ν]

theorem pageNumber_eq (layout : Layout ν) : layout.pageNumber = underPage layout := by
  unfold Layout.pageNumber underPage
  cases layout.pageNum with
  | none => exact zero_plusOne
  | some number => rfl

theorem pageTexts_keep (number : ν) (layouts : List (Layout ν)) :
    pageTexts number (layouts.map keep) = pageTexts number layouts := by
  have hfilter : (layouts.map keep).filter (fun layout => underPage layout = number) =
      (layouts.filter fun layout => underPage layout = number).map keep := List.filter_map
  have htexts : extractLayoutText ∘ keep = (extractLayoutText : Layout ν → Points) :=
    funext extractLayoutText_keep
  unfold pageTexts
  rw [hfilter, List.map_map, htexts]

end Kept

/-! ## 3. Requests -/

section Fetch

variable {ν : Type} (limits : Limits)

theorem collectLayouts_ok {textBytes : Nat} {layouts page : List (Layout ν)}
    {result : Nat × List (Layout ν)}
    (h : collectLayouts limits textBytes layouts page = .ok result) :
    result = (textBytes + textSize page, layouts ++ page.map keep) := by
  induction page generalizing textBytes layouts with
  | nil =>
    cases h
    rw [List.map_nil, List.append_nil]
    rfl
  | cons record rest ih =>
    unfold collectLayouts at h
    dsimp only at h
    split_ifs at h with hbytes
    rw [ih h, textSize_cons, List.map_cons, List.append_assoc, Nat.add_assoc]
    rfl

theorem collectLayouts_error {textBytes : Nat} {layouts page : List (Layout ν)}
    {error : ProviderResponseError}
    (h : collectLayouts limits textBytes layouts page = .error error) :
    error = limits.textExceeded ∧ limits.maxTextBytes < textBytes + textSize page := by
  induction page generalizing textBytes layouts with
  | nil => cases h
  | cons record rest ih =>
    unfold collectLayouts at h
    dsimp only at h
    rw [textSize_cons]
    split_ifs at h with hbytes
    · cases h
      exact ⟨rfl, by omega⟩
    · obtain ⟨herror, hsize⟩ := ih h
      exact ⟨herror, by omega⟩

/-- **A bounded number of requests**, whatever the service answers. -/
theorem requests_length_le (getResult : Request → Response ν) (left layoutNum textBytes : Nat)
    (layouts : List (Layout ν)) :
    (fetchFrom limits getResult left layoutNum textBytes layouts).requests.length ≤ left := by
  induction left generalizing layoutNum textBytes layouts with
  | zero => exact Nat.le_refl 0
  | succ left ih =>
    unfold fetchFrom
    dsimp only
    generalize getResult ⟨layoutNum, layoutStepSize⟩ = body
    by_cases hlayouts : limits.maxLayouts < layouts.length + body.page.length
    · simp [hlayouts]
    · cases collectLayouts limits textBytes layouts body.page with
      | error error => simp [hlayouts]
      | ok collected =>
        by_cases hshort : body.page.length < layoutStepSize
        · simp [hlayouts, hshort]
        · simp [hlayouts, hshort, ih]

/-- What has been read of a service: a stretch from the start. -/
structure Read (service : Service ν) (layoutNum textBytes : Nat) (layouts : List (Layout ν)) : Prop
  where
  within : layoutNum ≤ service.layouts.length
  layouts_eq : layouts = (service.layouts.take layoutNum).map keep
  bytes_eq : textBytes = textSize (service.layouts.take layoutNum)

/-- One more answer. -/
theorem Read.more {service : Service ν} {layoutNum textBytes : Nat} {layouts : List (Layout ν)}
    (h : Read service layoutNum textBytes layouts) {page : List (Layout ν)}
    (hpage : page = (service.layouts.drop layoutNum).take layoutStepSize) :
    Read service (layoutNum + page.length) (textBytes + textSize page) (layouts ++ page.map keep) := by
  have hlength : page.length = min layoutStepSize (service.layouts.length - layoutNum) := by
    rw [hpage, List.length_take, List.length_drop]
  have hbound := h.within
  have htake : service.layouts.take (layoutNum + page.length) =
      service.layouts.take layoutNum ++ page := by
    rw [List.take_add, hpage]
    congr 1
    rw [List.length_take, List.length_drop, ← List.take_take, List.take_of_length_le (Nat.le_of_eq
      (List.length_drop ..))]
  refine ⟨by omega, ?_, ?_⟩
  · rw [htake, List.map_append, h.layouts_eq]
  · rw [htake, textSize_append, h.bytes_eq]

variable [HostNumbers ν]

/-- **All layouts are fetched**, or the layouts are beyond a limit. -/
theorem fetchFrom_spec (service : Service ν) {left layoutNum textBytes : Nat}
    {layouts : List (Layout ν)} (h : Read service layoutNum textBytes layouts)
    (hleft : layoutNum + left * layoutStepSize = limits.maxResultRequests * layoutStepSize) :
    match (fetchFrom limits service.getDocParserResult left layoutNum textBytes layouts).outcome with
    | .ok (fetched, _) => fetched = service.layouts.map keep
    | .error error => Exceeded limits service.layouts error := by
  induction left generalizing layoutNum textBytes layouts with
  | zero =>
    have hbound := h.within
    exact .requests (by omega)
  | succ left ih =>
    have hpage := service.serves ⟨layoutNum, layoutStepSize⟩
    unfold fetchFrom
    dsimp only
    generalize service.getDocParserResult ⟨layoutNum, layoutStepSize⟩ = body at hpage ⊢
    dsimp only at hpage
    have hmore := h.more hpage
    have hlength : layouts.length = layoutNum := by
      rw [h.layouts_eq, List.length_map, List.length_take, Nat.min_eq_left h.within]
    have hpageLength : body.page.length =
        min layoutStepSize (service.layouts.length - layoutNum) := by
      rw [hpage, List.length_take, List.length_drop]
    have hbound := hmore.within
    by_cases hlayouts : limits.maxLayouts < layouts.length + body.page.length
    · rw [if_pos hlayouts]
      exact .layouts (by omega)
    · rw [if_neg hlayouts]
      cases hcollect : collectLayouts limits textBytes layouts body.page with
      | error error =>
        obtain ⟨rfl, hsize⟩ := collectLayouts_error limits hcollect
        have htotal := textSize_take_le (layoutNum + body.page.length) service.layouts
        rw [← hmore.bytes_eq] at htotal
        exact .text (Nat.lt_of_lt_of_le hsize htotal)
      | ok collected =>
        obtain rfl := collectLayouts_ok limits hcollect
        dsimp only
        by_cases hshort : body.page.length < layoutStepSize
        · -- a short answer ends the list
          have hend : layoutNum + body.page.length = service.layouts.length := by omega
          rw [if_pos hshort]
          show layouts ++ body.page.map keep = service.layouts.map keep
          rw [hmore.layouts_eq, hend, List.take_length]
        · rw [if_neg hshort]
          refine ih hmore ?_
          rw [← hleft, Nat.succ_mul]
          omega

end Fetch

/-! ## 4. Groups -/

section Group

variable {ν : Type} [HostNumbers ν]

/-- **What the map holds** after some layouts: their pages, and the texts of each. -/
structure Grouping (done : List (Layout ν)) (grouped : JsMap ν (PageLayouts ν)) : Prop where
  keys : grouped.keys = (done.map underPage).eraseDups
  markdown : ∀ number held, grouped.get number = some held →
    held.markdown = (done.filter fun layout => underPage layout = number).filterMap pickedText

/-- **One more layout.** -/
theorem Grouping.add {done : List (Layout ν)} {grouped : JsMap ν (PageLayouts ν)}
    (h : Grouping done grouped) (layout : Layout ν) :
    Grouping (done ++ [layout]) (addToPage grouped layout) := by
  -- the texts of the page so far, of a page that is new too
  have hsofar : ((grouped.get layout.pageNumber).getD ⟨[], []⟩).markdown =
      (done.filter fun other => underPage other = layout.pageNumber).filterMap pickedText := by
    cases hget : grouped.get layout.pageNumber with
    | some held => exact h.markdown _ _ hget
    | none =>
      have hnew : layout.pageNumber ∉ done.map underPage := by
        have hkey := JsMap.get_eq_none_iff.mp hget
        rw [h.keys, List.mem_eraseDups] at hkey
        exact hkey
      have hnone : done.filter (fun other => underPage other = layout.pageNumber) = [] := by
        refine List.filter_eq_nil_iff.mpr fun other hother hsame => hnew ?_
        exact List.mem_map.mpr ⟨other, hother, of_decide_eq_true hsame⟩
      rw [hnone]
      rfl
  constructor
  · unfold addToPage
    rw [List.map_append, JsMap.keys_set_eraseDups h.keys, pageNumber_eq]
    rfl
  · intro number held hget
    unfold addToPage at hget
    rw [JsMap.get_set] at hget
    rw [List.filter_append, List.filterMap_append]
    by_cases hnumber : layout.pageNumber = number
    · rw [if_pos hnumber] at hget
      obtain rfl := Option.some.inj hget
      subst hnumber
      have hlast : ([layout].filter fun other => underPage other = layout.pageNumber) = [layout] := by
        simp [pageNumber_eq]
      rw [hlast, ← hsofar]
      unfold pickedText
      cases hpick : layout.pick with
      | none => simp [hpick]
      | some markdown => simp [hpick]
    · rw [if_neg hnumber] at hget
      have hlast : ([layout].filter fun other => underPage other = number) = [] := by
        rw [pageNumber_eq] at hnumber
        simp [hnumber]
      rw [hlast, List.filterMap_nil, List.append_nil]
      exact h.markdown number held hget

section Distinct

variable {κ : Type} [BEq κ] [LawfulBEq κ]

theorem length_eraseDups_le (left right : List κ) :
    left.eraseDups.length ≤ (left ++ right).eraseDups.length := by
  rw [List.eraseDups_append, List.length_append]
  exact Nat.le_add_right _ _

theorem length_eraseDups_of_perm {left right : List κ} (h : left.Perm right) :
    left.eraseDups.length = right.eraseDups.length := by
  refine List.Perm.length_eq ?_
  rw [List.perm_ext_iff_of_nodup (JsMap.nodup_eraseDups left) (JsMap.nodup_eraseDups right)]
  intro key
  rw [List.mem_eraseDups, List.mem_eraseDups, h.mem_iff]

end Distinct

/-- **All layouts are grouped**, or there are too many pages. -/
theorem groupFrom_spec (limits : Limits) (rest : List (Layout ν)) {done : List (Layout ν)}
    {grouped : JsMap ν (PageLayouts ν)} (h : Grouping done grouped) :
    match groupFrom limits grouped rest with
    | .ok whole => Grouping (done ++ rest) whole
    | .error error => error = limits.pagesExceeded ∧
        limits.maxPages < ((done ++ rest).map underPage).eraseDups.length := by
  induction rest generalizing done grouped with
  | nil =>
    rw [List.append_nil]
    exact h
  | cons layout rest ih =>
    have hadd := h.add layout
    have hsplit : done ++ layout :: rest = (done ++ [layout]) ++ rest := by
      rw [List.append_assoc, List.singleton_append]
    unfold groupFrom
    dsimp only
    rw [hsplit]
    by_cases hpages : limits.maxPages < (addToPage grouped layout).length
    · rw [if_pos hpages]
      have hkeys := congrArg List.length hadd.keys
      have hle := length_eraseDups_le ((done ++ [layout]).map underPage) (rest.map underPage)
      unfold JsMap.keys at hkeys
      rw [List.length_map] at hkeys
      rw [← List.map_append] at hle
      exact ⟨rfl, by omega⟩
    · rw [if_neg hpages]
      exact ih hadd

/-! ## 5. Pages -/

/-- The layouts in order. -/
def inOrder (layouts : List (Layout ν)) : List (Layout ν × Nat) :=
  layouts.zipIdx.insertionSort fun left right => sortIndex left ≤ sortIndex right

theorem inOrder_perm (layouts : List (Layout ν)) : (inOrder layouts).Perm layouts.zipIdx :=
  List.perm_insertionSort _ _

theorem inOrder_pairwise (layouts : List (Layout ν)) : (inOrder layouts).Pairwise Before := by
  have hplaces : (layouts.zipIdx).Pairwise fun left right => left.2 < right.2 := by
    have hrange := List.pairwise_lt_range' (s := 0) (n := layouts.length)
    rw [← List.zipIdx_map_snd, List.pairwise_map] at hrange
    exact hrange
  have hnodup : layouts.zipIdx.Nodup :=
    hplaces.imp fun hlt heq => absurd (congrArg Prod.snd heq) (Nat.ne_of_lt hlt)
  have htotal : Std.Total fun left right : Layout ν × Nat => sortIndex left ≤ sortIndex right :=
    ⟨fun left right => le_total _ _⟩
  have htrans : IsTrans (Layout ν × Nat) fun left right => sortIndex left ≤ sortIndex right :=
    ⟨fun _ _ _ h1 h2 => le_trans h1 h2⟩
  have hsorted := List.pairwise_insertionSort
    (fun left right : Layout ν × Nat => sortIndex left ≤ sortIndex right) layouts.zipIdx
  unfold inOrder
  rw [List.pairwise_iff_forall_sublist] at hsorted hplaces ⊢
  intro left right hpair
  rcases lt_or_eq_of_le (hsorted hpair) with hlt | heq
  · exact .inl hlt
  · -- one index: they stand as they were served
    have htie : sortIndex right ≤ sortIndex left := le_of_eq heq.symm
    have hserved := StableSort.sublist_of_tie
      (fun left right : Layout ν × Nat => sortIndex left ≤ sortIndex right) hnodup htie hpair
    exact .inr ⟨heq, hplaces hserved⟩

/-- What is kept of the layouts stands in the same order. -/
theorem inOrder_keep (layouts : List (Layout ν)) :
    (inOrder (layouts.map keep)).map (·.1) = ((inOrder layouts).map (·.1)).map keep := by
  have hindex (entry : Layout ν × Nat) : sortIndex (Prod.map keep id entry) = sortIndex entry := rfl
  have hsort : (inOrder layouts).map (Prod.map keep id) = inOrder (layouts.map keep) := by
    unfold inOrder
    rw [List.zipIdx_map]
    refine List.map_insertionSort _ _ _ _ fun left _ right _ => ?_
    rw [hindex, hindex]
  rw [← hsort, List.map_map, List.map_map]
  rfl

theorem inOrder_perm_layouts (layouts : List (Layout ν)) :
    ((inOrder layouts).map (·.1)).Perm layouts := by
  have hmap := (inOrder_perm layouts).map (·.1)
  rw [List.zipIdx_map_fst] at hmap
  exact hmap

/-- **The map of all layouts is the document.** -/
theorem Grouping.complete {layouts : List (Layout ν)} {whole : JsMap ν (PageLayouts ν)}
    (h : Grouping (((inOrder layouts).map (·.1)).map keep) whole) :
    Complete layouts (whole.map toPage) := by
  have hnumbers : (((inOrder layouts).map (·.1)).map keep).map underPage =
      ((inOrder layouts).map (·.1)).map underPage := by
    rw [List.map_map]
    rfl
  have hkeys {number : ν} : number ∈ whole.keys ↔ ∃ layout ∈ layouts, underPage layout = number := by
    rw [h.keys, List.mem_eraseDups, hnumbers, ((inOrder_perm_layouts layouts).map underPage).mem_iff,
      List.mem_map]
  have hnodup : whole.keys.Nodup := by
    rw [h.keys]
    exact JsMap.nodup_eraseDups _
  constructor
  case distinct =>
    have hpages : (whole.map toPage).map (·.pageNumber) = whole.keys.map some := by
      unfold JsMap.keys
      rw [List.map_map, List.map_map]
      rfl
    rw [hpages]
    exact hnodup.map (Option.some_injective ν)
  case texts =>
    refine ⟨inOrder layouts, inOrder_perm layouts, inOrder_pairwise layouts, ?_⟩
    intro page hpage number hnumber
    obtain ⟨entry, hentry, rfl⟩ := List.mem_map.mp hpage
    obtain rfl : entry.1 = number := Option.some.inj hnumber
    have hheld := h.markdown _ _ ((JsMap.mem_iff_get hnodup).mp hentry)
    show List.intercalate blankLine (entry.2.markdown.filter fun text => !text.isEmpty) = _
    rw [hheld, filter_picked, ← pageTexts_keep]
    rfl
  case covers =>
    intro layout hlayout
    have hkey := hkeys.mpr ⟨layout, hlayout, rfl⟩
    obtain ⟨entry, hentry, hnumber⟩ := List.mem_map.mp hkey
    exact ⟨toPage entry, List.mem_map_of_mem hentry, congrArg some hnumber⟩
  case only =>
    intro _ page hpage
    obtain ⟨entry, hentry, rfl⟩ := List.mem_map.mp hpage
    obtain ⟨layout, hlayout, hnumber⟩ := hkeys.mp (List.mem_map_of_mem hentry)
    exact ⟨layout, hlayout, congrArg some hnumber.symm⟩

/-- **The pages of the layouts**, or there are too many. -/
theorem groupLayoutsByPage_spec (limits : Limits) (layouts : List (Layout ν)) :
    match groupLayoutsByPage limits (layouts.map keep) with
    | .ok pages => Complete layouts pages
    | .error error => Exceeded limits layouts error := by
  have hgrouping : Grouping ([] : List (Layout ν)) ([] : JsMap ν (PageLayouts ν)) :=
    ⟨rfl, fun _ _ h => nomatch h⟩
  have hspec := groupFrom_spec limits (((inOrder layouts).map (·.1)).map keep) hgrouping
  have hgroup : groupLayoutsByPage limits (layouts.map keep) =
      (groupFrom limits [] (((inOrder layouts).map (·.1)).map keep)).map (·.map toPage) := by
    rw [← inOrder_keep]
    rfl
  rw [List.nil_append] at hspec
  rw [hgroup]
  cases hcase : groupFrom limits [] (((inOrder layouts).map (·.1)).map keep) with
  | ok whole =>
    rw [hcase] at hspec
    exact Grouping.complete hspec
  | error error =>
    rw [hcase] at hspec
    obtain ⟨rfl, hpages⟩ := hspec
    rw [List.map_map] at hpages
    rw [length_eraseDups_of_perm ((inOrder_perm_layouts layouts).map (underPage ∘ keep))] at hpages
    exact .pages hpages

/-! ## 6. Results -/

/-- A document without layouts is whole, whatever text stands for it. -/
theorem complete_nil {pages : List (ParsedDocumentPage ν)} (h : pages.length ≤ 1)
    (hpages : ∀ page ∈ pages, page.pageNumber = none) : Complete ([] : List (Layout ν)) pages := by
  constructor
  case distinct =>
    match pages, h with
    | [], _ => exact List.nodup_nil
    | [page], _ => exact List.nodup_singleton _
  case texts =>
    refine ⟨[], List.Perm.nil, List.Pairwise.nil, fun page hpage number hnumber => ?_⟩
    rw [hpages page hpage] at hnumber
    nomatch hnumber
  case covers => exact fun layout hlayout => nomatch hlayout
  case only => exact fun h => absurd rfl h

theorem wholePage_spec (limits : Limits) (lastBody : Response ν) :
    match wholePage limits lastBody with
    | .ok pages => Complete ([] : List (Layout ν)) pages
    | .error error => Exceeded limits ([] : List (Layout ν)) error := by
  unfold wholePage
  cases (pickString [lastBody.dataMarkdown, lastBody.dataContent]).or
      (pickString [lastBody.bodyMarkdown, lastBody.bodyContent]) with
  | none => exact complete_nil (Nat.zero_le 1) fun page hpage => nomatch hpage
  | some markdown =>
    dsimp only
    by_cases hbytes : limits.maxTextBytes < byteLength markdown
    · rw [if_pos hbytes]
      exact .wholeText rfl
    · rw [if_neg hbytes]
      refine complete_nil (Nat.le_refl 1) fun page hpage => ?_
      rw [List.mem_singleton.mp hpage]

theorem documentPages_spec (limits : Limits) (layouts : List (Layout ν)) (lastBody : Response ν) :
    match documentPages limits (layouts.map keep) lastBody with
    | .ok pages => Complete layouts pages
    | .error error => Exceeded limits layouts error := by
  have hspec := groupLayoutsByPage_spec limits layouts
  unfold documentPages
  cases hgroup : groupLayoutsByPage limits (layouts.map keep) with
  | error error =>
    rw [hgroup] at hspec
    exact hspec
  | ok pages =>
    rw [hgroup] at hspec
    cases pages with
    | cons page more => exact hspec
    | nil =>
      -- every layout has a page
      have hnone : layouts = [] := by
        refine List.eq_nil_iff_forall_not_mem.mpr fun layout hlayout => ?_
        obtain ⟨page, hpage, -⟩ := Complete.covers hspec layout hlayout
        nomatch hpage
      rw [hnone]
      exact wholePage_spec limits lastBody

/-- **Results are complete**: a bounded number of requests, and a whole document or the error of a
    limit that its layouts are beyond. -/
theorem result_complete (limits : Limits) (service : Service ν) :
    (getResult limits service).requests.length ≤ limits.maxResultRequests ∧
      match (getResult limits service).pages with
      | .ok pages => Complete service.layouts pages
      | .error error => Exceeded limits service.layouts error := by
  refine ⟨requests_length_le limits _ _ _ _ _, ?_⟩
  have hread : Read service 0 0 [] := ⟨Nat.zero_le _, rfl, rfl⟩
  have hspec := fetchFrom_spec limits service hread (Nat.zero_add _)
  unfold getResult
  dsimp only
  cases houtcome :
      (fetchFrom limits service.getDocParserResult limits.maxResultRequests 0 0 []).outcome with
  | error error =>
    rw [houtcome] at hspec
    exact hspec
  | ok fetched =>
    obtain ⟨layouts, lastBody⟩ := fetched
    rw [houtcome] at hspec
    obtain rfl : layouts = service.layouts.map keep := hspec
    exact documentPages_spec limits service.layouts lastBody

end Group

end OpenVac.Providers.DocMind
