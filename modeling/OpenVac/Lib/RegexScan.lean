/-
  File:      OpenVac/Lib/RegexScan.lean
  Subject:   The matches of a global pattern, as a relation.

  * `search_yields` -- what the matcher hands to its continuation is the end of a match.
  * `matches_suffix`, `Within` -- a match takes a stretch of the text; of which characters.
  * `Scans r prev text pieces` -- the pieces a text falls into when the matches of `r` are taken
    out of it from the left.
  * `scans_execAll` -- the matches of `execAll` are such a scan, for a pattern that never matches
    nothing.
  * `matches_exact`, `matches_star`, `matches_plus` -- what words and runs of a pattern take.
  * `replaceAll_eq_join` -- a replacement joins the pieces between the matches.
-/
import OpenVac.Lib.JsRegex

namespace JsRegex

/-! ## 1. What the matcher hands on -/

section Yields

variable {β : Type}

/-- What a matcher finds, it finds at the end of a match of the relation. -/
def Yields (m : Matcher β) (R : Cursor → Cursor → Prop) : Prop :=
  ∀ k s b, m k s = some b → ∃ s', R s s' ∧ k s' = some b

theorem Yields.times {m : Matcher β} {R : Cursor → Cursor → Prop} (hm : Yields m R) (n : Nat) :
    Yields (JsRegex.times m n) (Repeats R n) := by
  intro k
  induction n with
  | zero =>
    intro s b h
    exact ⟨s, Repeats.zero s, h⟩
  | succ n ih =>
    intro s b h
    obtain ⟨s₁, h1, h2⟩ := hm _ _ _ h
    obtain ⟨s', h2, hk⟩ := ih s₁ b h2
    exact ⟨s', Repeats.succ h1 h2, hk⟩

theorem Yields.atMost {m : Matcher β} {R : Cursor → Cursor → Prop} (hm : Yields m R)
    (greedy : Bool) (n : Nat) :
    Yields (JsRegex.atMost m greedy n) (fun s s' => ∃ j, j ≤ n ∧ Repeats R j s s') := by
  intro k
  induction n with
  | zero =>
    intro s b h
    exact ⟨s, ⟨0, Nat.le_refl 0, Repeats.zero s⟩, h⟩
  | succ n ih =>
    intro s b h
    have hcases : k s = some b ∨ m (JsRegex.atMost m greedy n k) s = some b := by
      unfold JsRegex.atMost at h
      cases greedy with
      | true =>
        rw [if_pos rfl, Option.or_eq_some_iff] at h
        rcases h with h | ⟨-, h⟩
        · exact .inr h
        · exact .inl h
      | false =>
        rw [if_neg Bool.false_ne_true, Option.or_eq_some_iff] at h
        rcases h with h | ⟨-, h⟩
        · exact .inl h
        · exact .inr h
    rcases hcases with h | h
    · exact ⟨s, ⟨0, Nat.zero_le _, Repeats.zero s⟩, h⟩
    · obtain ⟨s₁, h1, h2⟩ := hm _ _ _ h
      obtain ⟨s', ⟨j, hj, h2⟩, hk⟩ := ih s₁ b h2
      exact ⟨s', ⟨j + 1, Nat.succ_le_succ hj, Repeats.succ h1 h2⟩, hk⟩

theorem oneChar_yields (p : Char → Bool) :
    Yields (oneChar (β := β) p)
      (fun s s' => ∃ d rest, s.rest = d :: rest ∧ p d = true ∧ s' = ⟨some d, rest⟩) := by
  intro k s b h
  unfold oneChar at h
  cases hrest : s.rest with
  | nil =>
    rw [hrest] at h
    cases h
  | cons d rest =>
    rw [hrest] at h
    dsimp only at h
    by_cases hp : p d = true
    · rw [if_pos hp] at h
      exact ⟨_, ⟨d, rest, hrest, hp, rfl⟩, h⟩
    · rw [if_neg hp] at h
      cases h

/-- **What the matcher hands to its continuation is the end of a match.** -/
theorem search_yields (r : Regex) : Yields (search (β := β) r) (Matches r) := by
  induction r with
  | empty => exact fun k s b h => ⟨s, rfl, h⟩
  | char c =>
    intro k s b h
    obtain ⟨s', ⟨d, rest, hrest, hfold, rfl⟩, hk⟩ := oneChar_yields _ k s b h
    exact ⟨_, ⟨d, rest, hrest, beq_iff_eq.mp hfold, rfl⟩, hk⟩
  | set p => exact oneChar_yields p
  | assert p =>
    intro k s b h
    have h : (if p s then k s else none) = some b := h
    by_cases hp : p s = true
    · rw [if_pos hp] at h
      exact ⟨s, ⟨hp, rfl⟩, h⟩
    · rw [if_neg hp] at h
      cases h
  | cat a c iha ihc =>
    intro k s b h
    obtain ⟨s₁, h1, h⟩ := iha (search c k) s b h
    obtain ⟨s', h2, hk⟩ := ihc k s₁ b h
    exact ⟨s', ⟨s₁, h1, h2⟩, hk⟩
  | alt a c iha ihc =>
    intro k s b h
    have h : (search a k s).or (search c k s) = some b := h
    rcases Option.or_eq_some_iff.mp h with h | ⟨-, h⟩
    · obtain ⟨s', h, hk⟩ := iha k s b h
      exact ⟨s', .inl h, hk⟩
    · obtain ⟨s', h, hk⟩ := ihc k s b h
      exact ⟨s', .inr h, hk⟩
  | rep r min more greedy ih =>
    intro k s b h
    obtain ⟨s₁, h1, h⟩ := ih.times min _ s b h
    obtain ⟨s', ⟨j, hj, h2⟩, hk⟩ := ih.atMost greedy _ k s₁ b h
    refine ⟨s', ⟨min + j, Nat.le_add_right _ _, ?_, h1.append h2⟩, hk⟩
    rintro m rfl
    exact Nat.add_le_add_left hj min

end Yields

theorem search_some {r : Regex} {s s' : Cursor} (h : search r some s = some s') :
    Matches r s s' := by
  obtain ⟨found, hm, hk⟩ := search_yields r some s s' h
  cases hk
  exact hm

theorem search_none {r : Regex} {s : Cursor} (h : search r some s = none) (s' : Cursor) :
    ¬ Matches r s s' := by
  intro hm
  have hfound : (search r some s).isSome = true := (search_iff r some s).mpr ⟨s', hm, rfl⟩
  rw [h] at hfound
  exact Bool.false_ne_true hfound

/-! ## 2. What a match takes -/

/-- Every character the pattern can take has the property. -/
def Within (p : Char → Prop) : Regex → Prop
  | .empty | .assert _ => True
  | .char c => ∀ d : Char, canonicalize d.toNat = canonicalize c.toNat → p d
  | .set q => ∀ d, q d = true → p d
  | .cat a b | .alt a b => Within p a ∧ Within p b
  | .rep r _ _ _ => Within p r

theorem Repeats.suffix {p : Char → Prop} {R : Cursor → Cursor → Prop}
    (hR : ∀ s s', R s s' → ∃ taken, s.rest = taken ++ s'.rest ∧ ∀ c ∈ taken, p c) {n : Nat}
    {s s' : Cursor} (h : Repeats R n s s') :
    ∃ taken, s.rest = taken ++ s'.rest ∧ ∀ c ∈ taken, p c := by
  induction h with
  | zero => exact ⟨[], rfl, fun c hc => absurd hc List.not_mem_nil⟩
  | succ h _ ih =>
    obtain ⟨first, hfirst, hp⟩ := hR _ _ h
    obtain ⟨more, hmore, hq⟩ := ih
    refine ⟨first ++ more, ?_, ?_⟩
    · rw [hfirst, hmore, List.append_assoc]
    · intro c hc
      rcases List.mem_append.mp hc with hc | hc
      · exact hp c hc
      · exact hq c hc

/-- **A match takes a stretch of the text, of characters its pattern can take.** -/
theorem matches_suffix {p : Char → Prop} {r : Regex} (hr : Within p r) {s s' : Cursor}
    (h : Matches r s s') : ∃ taken, s.rest = taken ++ s'.rest ∧ ∀ c ∈ taken, p c := by
  induction r generalizing s s' with
  | empty =>
    obtain rfl : s' = s := h
    exact ⟨[], rfl, fun c hc => absurd hc List.not_mem_nil⟩
  | char c =>
    obtain ⟨d, rest, hrest, hfold, rfl⟩ := h
    exact ⟨[d], hrest, fun e he => List.mem_singleton.mp he ▸ hr d hfold⟩
  | set q =>
    obtain ⟨d, rest, hrest, hq, rfl⟩ := h
    exact ⟨[d], hrest, fun e he => List.mem_singleton.mp he ▸ hr d hq⟩
  | assert q =>
    obtain ⟨-, rfl⟩ := h
    exact ⟨[], rfl, fun c hc => absurd hc List.not_mem_nil⟩
  | cat a b iha ihb =>
    obtain ⟨s₁, h1, h2⟩ := h
    have htwo : Repeats (fun t t' => Matches a t t' ∨ Matches b t t') 2 s s' :=
      .succ (.inl h1) (.succ (.inr h2) (.zero s'))
    refine htwo.suffix fun t t' ht => ?_
    rcases ht with ht | ht
    · exact iha hr.1 ht
    · exact ihb hr.2 ht
  | alt a b iha ihb =>
    rcases h with h | h
    · exact iha hr.1 h
    · exact ihb hr.2 h
  | rep r min more greedy ih =>
    obtain ⟨n, -, -, h⟩ := h
    exact h.suffix fun t t' ht => ih hr ht

theorem within_true (r : Regex) : Within (fun _ => True) r := by
  induction r with
  | empty | assert p => trivial
  | char c => exact fun _ _ => trivial
  | set p => exact fun _ _ => trivial
  | cat a b iha ihb => exact ⟨iha, ihb⟩
  | alt a b iha ihb => exact ⟨iha, ihb⟩
  | rep r min more greedy ih => exact ih

/-! ## 3. Scans -/

/-- The pattern never matches nothing. -/
def Proper (r : Regex) : Prop := ∀ s s', Matches r s s' → s'.rest.length < s.rest.length

/-- **The pieces of a text between the matches of a pattern**, which are taken from the left. -/
inductive Scans (r : Regex) : Option Char → List Char → List (List Char) → Prop where
  | done (prev : Option Char) (hno : ∀ s', ¬ Matches r ⟨prev, []⟩ s') : Scans r prev [] [[]]
  | step (prev : Option Char) (c : Char) (rest piece : List Char) (more : List (List Char))
      (hno : ∀ s', ¬ Matches r ⟨prev, c :: rest⟩ s')
      (hrest : Scans r (some c) rest (piece :: more)) :
      Scans r prev (c :: rest) ((c :: piece) :: more)
  | hit (prev : Option Char) (text : List Char) (s' : Cursor) (pieces : List (List Char))
      (hmatch : Matches r ⟨prev, text⟩ s') (hrest : Scans r s'.prev s'.rest pieces) :
      Scans r prev text ([] :: pieces)

/-- The stretches of a text before, between and after stretches of it. -/
def between (text : List Char) (from_ : Nat) : List (Nat × Nat) → List (List Char)
  | [] => [text.drop from_]
  | (start, stop) :: rest => (text.drop from_).take (start - from_) :: between text stop rest

/-- The matches from a place on are a scan of what is left; `gap` is what stands between the last
    match and the place. -/
theorem scans_execFrom {r : Regex} (hr : Proper r) (fuel : Nat) :
    ∀ (before gap text : List Char) (prev : Option Char), text.length < fuel →
      ∃ piece more, Scans r prev text (piece :: more) ∧
        between (before ++ gap ++ text) before.length
            (execFrom r fuel (before ++ gap).length prev text) =
          (gap ++ piece) :: more := by
  induction fuel with
  | zero => exact fun before gap text prev h => absurd h (Nat.not_lt_zero _)
  | succ fuel ih =>
    intro before gap text prev hfuel
    have hdrop : (before ++ gap ++ text).drop before.length = gap ++ text := by
      rw [List.append_assoc, List.drop_left]
    unfold execFrom
    cases hsearch : search r some ⟨prev, text⟩ with
    | some s' =>
      have hmatch := search_some hsearch
      obtain ⟨taken, htext, -⟩ := matches_suffix (within_true r) hmatch
      have htext : text = taken ++ s'.rest := htext
      have hlength : s'.rest.length < text.length := hr _ _ hmatch
      have hsum : text.length = taken.length + s'.rest.length := by
        rw [htext, List.length_append]
      have hstop : (before ++ gap).length + (text.length - s'.rest.length) =
          (before ++ gap ++ taken ++ []).length := by
        rw [List.append_nil, @List.length_append _ (before ++ gap)]
        omega
      have hne : ¬ (before ++ gap ++ taken ++ []).length = (before ++ gap).length := by
        rw [List.append_nil, @List.length_append _ (before ++ gap)]
        omega
      obtain ⟨piece, more, hscan, hbetween⟩ :=
        ih (before ++ gap ++ taken) [] s'.rest s'.prev (by omega)
      refine ⟨[], piece :: more, .hit prev text s' _ hmatch hscan, ?_⟩
      dsimp only
      rw [hstop, if_neg hne]
      unfold between
      have hwhole : before ++ gap ++ text = before ++ gap ++ taken ++ [] ++ s'.rest := by
        rw [htext, List.append_nil, List.append_assoc (before ++ gap)]
      have hgap : (before ++ gap).length - before.length = gap.length := by
        rw [List.length_append]
        omega
      have hbefore : (before ++ gap ++ taken).length =
          (before ++ gap ++ taken ++ []).length := by
        rw [List.append_nil]
      rw [hbefore] at hbetween
      rw [hdrop, hgap, List.take_left, hwhole, hbetween, List.append_nil, List.nil_append]
    | none =>
      have hno := search_none hsearch
      cases text with
      | nil =>
        refine ⟨[], [], .done prev hno, ?_⟩
        show [(before ++ gap ++ []).drop before.length] = _
        rw [hdrop]
      | cons c rest =>
        obtain ⟨piece, more, hscan, hbetween⟩ :=
          ih before (gap ++ [c]) rest (some c) (Nat.lt_of_succ_lt_succ hfuel)
        refine ⟨c :: piece, more, .step prev c rest piece more hno hscan, ?_⟩
        dsimp only
        have hwhole : before ++ gap ++ c :: rest = before ++ (gap ++ [c]) ++ rest := by
          simp only [List.append_assoc, List.singleton_append]
        have hplace : (before ++ gap).length + 1 = (before ++ (gap ++ [c])).length := by
          rw [← List.append_assoc, @List.length_append _ (before ++ gap)]
          rfl
        rw [hwhole, hplace, hbetween, List.append_assoc, List.singleton_append]

/-- **The pieces between the matches of `execAll` are a scan of the text.** -/
theorem scans_execAll {r : Regex} (hr : Proper r) (text : List Char) :
    Scans r none text (between text 0 (execAll r text)) := by
  obtain ⟨piece, more, hscan, hbetween⟩ :=
    scans_execFrom hr (text.length + 1) [] [] text none (Nat.lt_succ_self _)
  have hbetween : between text 0 (execAll r text) = piece :: more := hbetween
  rw [hbetween]
  exact hscan

/-! ## 4. Words and runs -/

theorem proper_set (p : Char → Bool) : Proper (.set p) := by
  rintro s s' ⟨d, rest, hrest, -, rfl⟩
  rw [hrest]
  exact Nat.lt_succ_self _

theorem Proper.cat {a : Regex} (ha : Proper a) (b : Regex) : Proper (.cat a b) := by
  rintro s s' ⟨s₁, h1, h2⟩
  have hfirst := ha s s₁ h1
  rcases matches_consumes b s₁ s' h2 with rfl | hsecond
  · exact hfirst
  · omega

theorem matches_exact_iff (word : List Char) (s s' : Cursor) :
    Matches (word.foldr (fun c r => .cat (.set fun d => d.toNat == c.toNat) r) .empty) s s' ↔
      s.rest = word ++ s'.rest ∧ s'.prev = word.getLast?.or s.prev := by
  induction word generalizing s with
  | nil =>
    constructor
    · intro h
      obtain rfl : s' = s := h
      exact ⟨rfl, rfl⟩
    · rintro ⟨hrest, hprev⟩
      show s' = s
      cases s
      cases s'
      cases hrest
      cases hprev
      rfl
  | cons c word ih =>
    have hlast : (c :: word).getLast?.or s.prev = word.getLast?.or (some c) := by
      rw [List.getLast?_cons]
      cases word.getLast? with
      | none => rfl
      | some d => rfl
    rw [hlast]
    constructor
    · rintro ⟨s₁, ⟨d, rest, hrest, hd, rfl⟩, h⟩
      obtain rfl : d = c := Char.toNat_inj.mp (beq_iff_eq.mp hd)
      obtain ⟨hmore, hprev⟩ := (ih _).mp h
      exact ⟨by rw [hrest, List.cons_append, ← hmore], hprev⟩
    · rintro ⟨hrest, hprev⟩
      exact ⟨⟨some c, word ++ s'.rest⟩, ⟨c, word ++ s'.rest, hrest, beq_self_eq_true _, rfl⟩,
        (ih _).mpr ⟨rfl, hprev⟩⟩

/-- A word of a pattern takes that word. -/
theorem matches_exact {word : String} {s s' : Cursor} (h : Matches (exact word) s s') :
    s.rest = word.toList ++ s'.rest := ((matches_exact_iff word.toList s s').mp h).1

theorem exact_matches (word : String) (prev : Option Char) (rest : List Char) :
    Matches (exact word) ⟨prev, word.toList ++ rest⟩ ⟨word.toList.getLast?.or prev, rest⟩ :=
  (matches_exact_iff word.toList _ _).mpr ⟨rfl, rfl⟩

/-- A run of characters that the class accepts is a match of each length. -/
theorem repeats_set {p : Char → Bool} {run : List Char} (hrun : ∀ c ∈ run, p c = true)
    (prev : Option Char) (rest : List Char) :
    Repeats (Matches (.set p)) run.length ⟨prev, run ++ rest⟩ ⟨run.getLast?.or prev, rest⟩ := by
  induction run generalizing prev with
  | nil => exact .zero _
  | cons c run ih =>
    have hlast : (c :: run).getLast?.or prev = run.getLast?.or (some c) := by
      rw [List.getLast?_cons]
      cases run.getLast? with
      | none => rfl
      | some d => rfl
    rw [hlast]
    exact .succ ⟨c, run ++ rest, rfl, hrun c List.mem_cons_self, rfl⟩
      (ih (fun d hd => hrun d (List.mem_cons_of_mem c hd)) (some c))

theorem star_matches {p : Char → Bool} {run : List Char} (hrun : ∀ c ∈ run, p c = true)
    (prev : Option Char) (rest : List Char) :
    Matches (star (.set p)) ⟨prev, run ++ rest⟩ ⟨run.getLast?.or prev, rest⟩ :=
  ⟨run.length, Nat.zero_le _, (fun _ h => nomatch h), repeats_set hrun prev rest⟩

theorem plus_matches {p : Char → Bool} {run : List Char} (hrun : ∀ c ∈ run, p c = true)
    (hne : run ≠ []) (prev : Option Char) (rest : List Char) :
    Matches (plus (.set p)) ⟨prev, run ++ rest⟩ ⟨run.getLast?.or prev, rest⟩ :=
  ⟨run.length, List.length_pos_iff.mpr hne, (fun _ h => nomatch h), repeats_set hrun prev rest⟩

theorem matches_star {p : Char → Bool} {s s' : Cursor} (h : Matches (star (.set p)) s s') :
    ∃ run, s.rest = run ++ s'.rest ∧ ∀ c ∈ run, p c = true :=
  @matches_suffix (fun c => p c = true) (star (.set p)) (fun _ hd => hd) _ _ h

theorem matches_plus {p : Char → Bool} {s s' : Cursor} (h : Matches (plus (.set p)) s s') :
    ∃ run, s.rest = run ++ s'.rest ∧ (∀ c ∈ run, p c = true) ∧ run ≠ [] := by
  obtain ⟨run, hrun, hall⟩ :=
    @matches_suffix (fun c => p c = true) (plus (.set p)) (fun _ hd => hd) _ _ h
  refine ⟨run, hrun, hall, ?_⟩
  rintro rfl
  obtain ⟨n, hn, -, hrounds⟩ := h
  cases hrounds with
  | zero => exact absurd hn (by omega)
  | succ hfirst hmore =>
    have hlt := proper_set p _ _ hfirst
    have hle := (matches_consumes (.set p)).repeats hmore
    rw [List.nil_append] at hrun
    rw [hrun] at hlt
    rcases hle with rfl | hle
    · omega
    · omega

/-! ## 5. Replacing -/

/-- **A replacement stands where the matches were.** -/
theorem replaceAll_eq_join (r : Regex) (replacement text : List Char) :
    replaceAll r replacement text =
      JsString.join replacement (between text 0 (execAll r text)) := by
  have hgo (found : List (Nat × Nat)) (done : List Char) (from_ : Nat) :
      let go := found.foldl (fun (acc : List Char × Nat) m =>
        (acc.1 ++ (text.drop acc.2).take (m.1 - acc.2) ++ replacement, m.2)) (done, from_)
      go.1 ++ text.drop go.2 = done ++ JsString.join replacement (between text from_ found) := by
    induction found generalizing done from_ with
    | nil => rw [between, JsString.join, List.intercalate_singleton, List.foldl_nil]
    | cons first rest ih =>
      have hne : between text first.2 rest ≠ [] := by cases rest <;> exact List.cons_ne_nil _ _
      obtain ⟨piece, more, hbetween⟩ := List.exists_cons_of_ne_nil hne
      have hrest := ih (done ++ (text.drop from_).take (first.1 - from_) ++ replacement) first.2
      rw [List.foldl_cons]
      refine hrest.trans ?_
      rw [between, hbetween, JsString.join, JsString.join, List.intercalate_cons_cons,
        List.append_assoc, List.append_assoc, List.append_assoc]
  exact hgo (execAll r text) [] 0

/-- What is repeated at least once matches something. -/
theorem Proper.rep {r : Regex} (hr : Proper r) {min : Nat} (hmin : 0 < min) (more : Option Nat)
    (greedy : Bool) : Proper (.rep r min more greedy) := by
  rintro s s' ⟨n, hn, -, hrepeats⟩
  cases hrepeats with
  | zero => omega
  | succ h t =>
    have hfirst := hr _ _ h
    rcases (matches_consumes r).repeats t with rfl | hrest
    · exact hfirst
    · exact Nat.lt_trans hrest hfirst

end JsRegex
