/-
  File:      OpenVac/Lib/CodeWindows.lean
  Subject:   Texts cut into windows of their code units.

  * `exists_split` -- a text splits near every place.
  * `lead_of_trail`, `getLast?_codeUnits` -- where the halves of a pair stand in a text.
  * `windowsFrom` -- the windows of one size that begin every few places, up to the one that
    reaches the end; `windowsFrom_read` -- a text is read off them, every character whole.
  * `ofCodeUnits_within`, `trim_ofCodeUnits`, `count_ofCodeUnits` -- what a window is as text.
-/
import OpenVac.Lib.CodeUnits

namespace JsString

/-! ## 1. Halves of pairs -/

theorem codeUnits_narrow_single {c : Char} (h : c.toNat < 0x10000) : codeUnits [c] = [.whole c] := by
  simp [codeUnits, h]

theorem codeUnits_wide_single {c : Char} (h : ¬ c.toNat < 0x10000) :
    codeUnits [c] = [.lead c, .trail c] := by
  simp [codeUnits, h]

theorem codeUnits_eq_nil_iff {text : Text} : codeUnits text = [] ↔ text = [] := by
  constructor
  · intro h
    cases text with
    | nil => rfl
    | cons c rest =>
      rw [codeUnits_cons, List.append_eq_nil_iff] at h
      exact absurd h.1 (codeUnits_ne_nil c)
  · rintro rfl
    rfl

/-- **A text splits near every place**: at it, or one unit later where it would cut a character. -/
theorem exists_split (text : Text) {n : Nat} (h : n ≤ (codeUnits text).length) :
    ∃ now later, text = now ++ later ∧
      ((codeUnits now).length = n ∨
        (codeUnits now).length = n + 1 ∧ ∃ c, (codeUnits text)[n]? = some (.trail c)) := by
  induction text generalizing n with
  | nil =>
    have hzero : n = 0 := Nat.le_zero.mp h
    exact ⟨[], [], rfl, .inl hzero.symm⟩
  | cons c rest ih =>
    rw [codeUnits_cons] at h ⊢
    rw [List.length_append] at h
    by_cases hwidth : (codeUnits [c]).length ≤ n
    · obtain ⟨now, later, rfl, hlength⟩ := @ih (n - (codeUnits [c]).length) (by omega)
      refine ⟨c :: now, later, rfl, ?_⟩
      rw [codeUnits_cons c now, List.length_append, List.getElem?_append_right hwidth]
      rcases hlength with hlength | ⟨hlength, hcut⟩
      · exact .inl (by omega)
      · exact .inr ⟨by omega, hcut⟩
    · by_cases hzero : n = 0
      · exact ⟨[], c :: rest, rfl, .inl hzero.symm⟩
      · -- the place is between the halves of a pair
        have hwide : ¬ c.toNat < 0x10000 := by
          intro hlow
          rw [codeUnits_narrow_single hlow, List.length_singleton] at hwidth
          omega
        rw [codeUnits_wide_single hwide, List.length_cons, List.length_singleton] at hwidth
        obtain rfl : n = 1 := by omega
        refine ⟨[c], rest, rfl, .inr ⟨?_, c, ?_⟩⟩
        · rw [codeUnits_wide_single hwide]
          rfl
        · rw [codeUnits_wide_single hwide]
          rfl

theorem drop_append_units (taken rest : Text) :
    (codeUnits (taken ++ rest)).drop (codeUnits taken).length = codeUnits rest := by
  rw [codeUnits_append, List.drop_left]

/-- Behind the first half of a pair stands the second. -/
theorem lead_of_trail {text : Text} {n : Nat} {c : Char}
    (h : (codeUnits text)[n]? = some (.trail c)) :
    ∃ m, n = m + 1 ∧ (codeUnits text)[m]? = some (.lead c) := by
  induction text generalizing n with
  | nil => nomatch h
  | cons d rest ih =>
    rw [codeUnits_cons] at h ⊢
    by_cases hlow : d.toNat < 0x10000
    · rw [codeUnits_narrow_single hlow] at h ⊢
      cases n with
      | zero => nomatch h
      | succ n =>
        obtain ⟨m, rfl, hm⟩ := ih (show (codeUnits rest)[n]? = _ from h)
        exact ⟨m + 1, rfl, hm⟩
    · rw [codeUnits_wide_single hlow] at h ⊢
      match n, h with
      | 0, h => nomatch h
      | 1, h =>
        obtain rfl : d = c := CodeUnit.trail.inj (Option.some.inj h)
        exact ⟨0, rfl, rfl⟩
      | n + 2, h =>
        obtain ⟨m, rfl, hm⟩ := ih (show (codeUnits rest)[n]? = _ from h)
        exact ⟨m + 2, rfl, hm⟩

/-- A text does not end in the first half of a pair. -/
theorem getLast?_codeUnits (text : Text) (c : Char) : (codeUnits text).getLast? ≠ some (.lead c) := by
  induction text using List.reverseRecOn with
  | nil => exact fun h => nomatch h
  | append_singleton rest d ih =>
    rw [codeUnits_append]
    by_cases hlow : d.toNat < 0x10000
    · rw [codeUnits_narrow_single hlow, List.getLast?_concat]
      exact fun h => nomatch h
    · have hunits : codeUnits [d] = [.lead d] ++ [.trail d] := codeUnits_wide_single hlow
      rw [hunits, ← List.append_assoc, List.getLast?_concat]
      exact fun h => nomatch h

/-! ## 2. Windows -/

/-- Offsets and windows from an offset on; the window that reaches the end is the last. -/
def windowsFrom (size stride : Nat) (s : Units) (offset : Nat) : List (Nat × Units) :=
  if offset < s.length ∧ 0 < stride then
    (offset, sliceUnits offset (offset + size) s) ::
      if s.length ≤ offset + size then [] else windowsFrom size stride s (offset + stride)
  else []
termination_by s.length - offset

/-- Every window is the stretch of the text at its offset. -/
theorem slice_of_mem_windowsFrom {size stride : Nat} {s : Units} {offset : Nat} :
    ∀ w ∈ windowsFrom size stride s offset, w.1 < s.length ∧ w.2 = sliceUnits w.1 (w.1 + size) s := by
  fun_induction windowsFrom size stride s offset with
  | case1 offset hmore ih =>
    intro w hw
    rcases List.mem_cons.mp hw with rfl | hrest
    · exact ⟨hmore.1, rfl⟩
    · split_ifs at hrest with hend
      · nomatch hrest
      · exact ih w hrest
  | case2 => exact fun w hw => nomatch hw

/-- The characters that begin before an offset have been read when the windows get there. -/
theorem windowsFrom_read_from {size stride : Nat} (hstride : 0 < stride) (hle : stride ≤ size)
    {text : Text} (huncut : stride = size → ∀ k c, (codeUnits text)[k * size]? ≠ some (.trail c))
    {offset : Nat} (hoffset : ∃ k, offset = k * stride) {taken rest : Text}
    (hsplit : text = taken ++ rest) (hlow : offset ≤ (codeUnits taken).length)
    (hhigh : (codeUnits taken).length ≤ offset + 1)
    (hexact : stride = size → (codeUnits taken).length = offset) :
    ∃ parts : List Text, parts.flatten = rest ∧
      List.Forall₂ (fun part w => codeUnits part <:+: w.2) parts
        (windowsFrom size stride (codeUnits text) offset) := by
  induction hn : (codeUnits text).length - offset using Nat.strong_induction_on
    generalizing offset taken rest with
  | _ n ih =>
    have hlength : (codeUnits text).length =
        (codeUnits taken).length + (codeUnits rest).length := by
      rw [hsplit, codeUnits_append, List.length_append]
    rw [windowsFrom]
    by_cases hmore : offset < (codeUnits text).length
    · rw [if_pos ⟨hmore, hstride⟩]
      by_cases hend : (codeUnits text).length ≤ offset + size
      · -- the last window has all that is left
        rw [if_pos hend]
        refine ⟨[rest], List.append_nil rest, .cons ?_ .nil⟩
        have hdrop := drop_append_units taken rest
        rw [← hsplit] at hdrop
        unfold sliceUnits
        rw [List.take_of_length_le hend, ← hdrop]
        exact (List.drop_suffix_drop_left _ hlow).isInfix
      · rw [if_neg hend]
        obtain ⟨k, hk⟩ := hoffset
        have hnext : offset + stride = (k + 1) * stride := by
          rw [hk, Nat.succ_mul]
        obtain ⟨now, later, rfl, hnow⟩ :=
          @exists_split rest (offset + stride - (codeUnits taken).length) (by omega)
        have hread : (codeUnits (taken ++ now)).length =
            (codeUnits taken).length + (codeUnits now).length := by
          rw [codeUnits_append, List.length_append]
        have hexactNext : stride = size → (codeUnits (taken ++ now)).length = offset + stride := by
          intro hsame
          rcases hnow with hnow | ⟨-, c, hcut⟩
          · omega
          · -- the window would end within a character
            refine absurd ?_ (huncut hsame (k + 1) c)
            have hplace : (k + 1) * size =
                (codeUnits taken).length + (offset + stride - (codeUnits taken).length) := by
              rw [← hsame, ← hnext]
              omega
            rw [hplace, hsplit, codeUnits_append,
              List.getElem?_append_right (Nat.le_add_right _ _), Nat.add_sub_cancel_left]
            exact hcut
        have hwindow : codeUnits now <:+:
            sliceUnits offset (offset + size) (codeUnits text) := by
          have hfits : (codeUnits (taken ++ now)).length ≤ offset + size := by
            by_cases hsame : stride = size
            · have h := hexactNext hsame
              omega
            · rcases hnow with hnow | ⟨hnow, -⟩
              · omega
              · omega
          unfold sliceUnits
          rw [hsplit, ← List.append_assoc, codeUnits_append (taken ++ now), List.take_append,
            List.take_of_length_le hfits, codeUnits_append taken now, List.append_assoc,
            List.drop_append_of_le_length hlow]
          exact ⟨_, _, List.append_assoc _ _ _⟩
        obtain ⟨parts, hparts, hwindows⟩ := ih _ (by omega) ⟨k + 1, hnext⟩
          (hsplit.trans (List.append_assoc _ _ _).symm)
          (by rcases hnow with hnow | ⟨hnow, -⟩ <;> omega)
          (by rcases hnow with hnow | ⟨hnow, -⟩ <;> omega) hexactNext rfl
        exact ⟨now :: parts, congrArg (now ++ ·) hparts, .cons hwindow hwindows⟩
    · have hnone : codeUnits rest = [] := List.length_eq_zero_iff.mp (by omega)
      rw [if_neg fun h => hmore h.1, codeUnits_eq_nil_iff.mp hnone]
      exact ⟨[], rfl, .nil⟩

/-- **A text is read off its windows**, every character whole, if they overlap or none ends within
    a character. -/
theorem windowsFrom_read {size stride : Nat} (hstride : 0 < stride) (hle : stride ≤ size)
    (text : Text) (huncut : stride = size → ∀ k c, (codeUnits text)[k * size]? ≠ some (.trail c)) :
    ∃ parts : List Text, parts.flatten = text ∧
      List.Forall₂ (fun part w => codeUnits part <:+: w.2) parts
        (windowsFrom size stride (codeUnits text) 0) :=
  @windowsFrom_read_from size stride hstride hle text huncut 0 ⟨0, (Nat.zero_mul _).symm⟩ [] text
    rfl (Nat.le_refl 0) (Nat.zero_le 1) fun _ => rfl

/-! ## 3. Windows as text -/

/-- Half of a pair is half of a character that needs one; a whole unit is a character that does
    not. -/
def CodeUnit.Sound : CodeUnit → Prop
  | .whole c => c.toNat < 0x10000
  | .lead c | .trail c => ¬ c.toNat < 0x10000

theorem sound_codeUnits (text : Text) : ∀ unit ∈ codeUnits text, unit.Sound := by
  induction text with
  | nil => exact fun unit hunit => nomatch hunit
  | cons c rest ih =>
    intro unit hunit
    rw [codeUnits_cons] at hunit
    rcases List.mem_append.mp hunit with hfirst | hmore
    · by_cases hlow : c.toNat < 0x10000
      · rw [codeUnits_narrow_single hlow] at hfirst
        rw [List.mem_singleton.mp hfirst]
        exact hlow
      · rw [codeUnits_wide_single hlow] at hfirst
        simp only [List.mem_cons, List.not_mem_nil, or_false] at hfirst
        rcases hfirst with rfl | rfl
        · exact hlow
        · exact hlow
    · exact ih unit hmore

/-- By what the units of a text are read as: characters, and halves that are alone. -/
theorem ofCodeUnits_lead_alone (c : Char) {rest : Units} (h : ∀ d more, rest ≠ .trail d :: more) :
    ofCodeUnits (.lead c :: rest) = '\uFFFD' :: ofCodeUnits rest :=
  ofCodeUnits.eq_4 _ _ h

theorem head?_codeUnits_ne_trail (text : Text) (d : Char) (more : Units) :
    codeUnits text ≠ .trail d :: more := by
  cases text with
  | nil => exact fun h => nomatch h
  | cons c rest =>
    rw [codeUnits_cons]
    by_cases hlow : c.toNat < 0x10000
    · rw [codeUnits_narrow_single hlow]
      exact fun h => nomatch h
    · rw [codeUnits_wide_single hlow]
      exact fun h => nomatch h

/-- The units of a text are read as the text, whatever follows. -/
theorem ofCodeUnits_text (text : Text) (after : Units) :
    ofCodeUnits (codeUnits text ++ after) = text ++ ofCodeUnits after := by
  induction text with
  | nil => rfl
  | cons c rest ih =>
    rw [codeUnits_cons, List.append_assoc]
    by_cases hlow : c.toNat < 0x10000
    · rw [codeUnits_narrow_single hlow]
      show c :: ofCodeUnits (codeUnits rest ++ after) = c :: (rest ++ ofCodeUnits after)
      rw [ih]
    · rw [codeUnits_wide_single hlow]
      show c :: ofCodeUnits (codeUnits rest ++ after) = c :: (rest ++ ofCodeUnits after)
      rw [ih]

/-- Units that no second half follows are read on their own. -/
theorem ofCodeUnits_append {before after : Units} (h : ∀ d more, after ≠ .trail d :: more) :
    ofCodeUnits (before ++ after) = ofCodeUnits before ++ ofCodeUnits after := by
  induction before using ofCodeUnits.induct with
  | case1 => rfl
  | case2 c rest ih =>
    show c :: ofCodeUnits (rest ++ after) = c :: (ofCodeUnits rest ++ ofCodeUnits after)
    rw [ih]
  | case3 c d rest ih =>
    show c :: ofCodeUnits (rest ++ after) = c :: (ofCodeUnits rest ++ ofCodeUnits after)
    rw [ih]
  | case4 c rest hno ih =>
    have hnext : ∀ d more, rest ++ after ≠ .trail d :: more := by
      intro d more heq
      cases rest with
      | nil => exact h d more heq
      | cons unit rest =>
        obtain ⟨rfl, -⟩ := List.cons.inj heq
        exact hno d rest rfl
    rw [List.cons_append, ofCodeUnits_lead_alone c hnext, ofCodeUnits_lead_alone c hno, ih]
    rfl
  | case5 c rest ih =>
    show '\uFFFD' :: ofCodeUnits (rest ++ after) =
      '\uFFFD' :: (ofCodeUnits rest ++ ofCodeUnits after)
    rw [ih]

/-- **Characters that stand whole among units are read.** -/
theorem ofCodeUnits_within {text : Text} {units : Units} (h : codeUnits text <:+: units) :
    text <:+: ofCodeUnits units := by
  obtain ⟨before, after, rfl⟩ := h
  cases text with
  | nil => exact List.nil_infix
  | cons c rest =>
    have hnext : ∀ d more, codeUnits (c :: rest) ++ after ≠ .trail d :: more := by
      intro d more heq
      have hhead := head?_codeUnits_ne_trail (c :: rest) d
      cases hunits : codeUnits (c :: rest) with
      | nil => exact absurd (codeUnits_eq_nil_iff.mp hunits) (List.cons_ne_nil _ _)
      | cons unit units =>
        rw [hunits] at heq hhead
        obtain ⟨rfl, -⟩ := List.cons.inj heq
        exact hhead units rfl
    refine ⟨ofCodeUnits before, ofCodeUnits after, ?_⟩
    rw [List.append_assoc, List.append_assoc, ofCodeUnits_append hnext, ofCodeUnits_text]

theorem length_ofCodeUnits {units : Units} (h : ∀ unit ∈ units, unit.Sound) :
    utf16Length (ofCodeUnits units) = units.length := by
  have hlow : ('\uFFFD').toNat < 0x10000 := by decide
  induction units using ofCodeUnits.induct with
  | case1 => rfl
  | case2 c rest ih =>
    have hc : c.toNat < 0x10000 := h (.whole c) List.mem_cons_self
    have hrest := ih fun unit hunit => h unit (List.mem_cons_of_mem _ hunit)
    unfold ofCodeUnits
    rw [utf16Length_cons, if_pos hc, hrest, List.length_cons]
    omega
  | case3 c d rest ih =>
    have hc : ¬ c.toNat < 0x10000 := h (.lead c) List.mem_cons_self
    have hrest := ih fun unit hunit =>
      h unit (List.mem_cons_of_mem _ (List.mem_cons_of_mem _ hunit))
    unfold ofCodeUnits
    rw [utf16Length_cons, if_neg hc, hrest, List.length_cons, List.length_cons]
    omega
  | case4 c rest hno ih =>
    have hrest := ih fun unit hunit => h unit (List.mem_cons_of_mem _ hunit)
    rw [ofCodeUnits_lead_alone c hno, utf16Length_cons, if_pos hlow, hrest, List.length_cons]
    omega
  | case5 c rest ih =>
    have hrest := ih fun unit hunit => h unit (List.mem_cons_of_mem _ hunit)
    unfold ofCodeUnits
    rw [utf16Length_cons, if_pos hlow, hrest, List.length_cons]
    omega

/-! ## 4. Blanks and line feeds of a window -/

theorem isWhiteSpace_of_wide {c : Char} (h : ¬ c.toNat < 0x10000) : isWhiteSpace c = false :=
  Bool.eq_false_iff.mpr fun hblank => h (toNat_of_isWhiteSpace hblank)

/-- A unit that is not blank begins a character that is not white space. -/
theorem ofCodeUnits_solid {unit : CodeUnit} (hsound : unit.Sound) (hsolid : unit.isBlank = false)
    (rest : Units) : ∃ c more, ofCodeUnits (unit :: rest) = c :: more ∧ isWhiteSpace c = false := by
  cases unit with
  | whole c => exact ⟨c, ofCodeUnits rest, rfl, hsolid⟩
  | trail c => exact ⟨'\uFFFD', ofCodeUnits rest, rfl, by decide⟩
  | lead c =>
    by_cases hpair : ∃ d more, rest = .trail d :: more
    · obtain ⟨d, more, rfl⟩ := hpair
      exact ⟨c, ofCodeUnits more, rfl, isWhiteSpace_of_wide hsound⟩
    · have hno : ∀ d more, rest ≠ .trail d :: more := fun d more h => hpair ⟨d, more, h⟩
      exact ⟨'\uFFFD', ofCodeUnits rest, ofCodeUnits_lead_alone c hno, by decide⟩

theorem trimStart_ofCodeUnits {units : Units} (h : ∀ unit ∈ units, unit.Sound) :
    trimStart (ofCodeUnits units) = ofCodeUnits (units.dropWhile CodeUnit.isBlank) := by
  induction units with
  | nil => rfl
  | cons unit rest ih =>
    have hrest := ih fun other hother => h other (List.mem_cons_of_mem _ hother)
    by_cases hblank : unit.isBlank = true
    · rw [List.dropWhile_cons_of_pos hblank, ← hrest]
      cases unit with
      | whole c => exact List.dropWhile_cons_of_pos hblank
      | lead c => nomatch hblank
      | trail c => nomatch hblank
    · rw [List.dropWhile_cons_of_neg hblank]
      obtain ⟨c, more, hread, hsolid⟩ :=
        ofCodeUnits_solid (h unit List.mem_cons_self) (Bool.eq_false_iff.mpr hblank) rest
      rw [hread]
      exact List.dropWhile_cons_of_neg (by rw [hsolid]; exact Bool.false_ne_true)

theorem ofCodeUnits_blank {units : Units} (h : ∀ unit ∈ units, unit.isBlank = true) :
    ∀ c ∈ ofCodeUnits units, isWhiteSpace c = true := by
  induction units with
  | nil => exact fun c hc => nomatch hc
  | cons unit rest ih =>
    have hunit := h unit List.mem_cons_self
    cases unit with
    | whole d =>
      intro c hc
      rcases List.mem_cons.mp hc with rfl | hmore
      · exact hunit
      · exact ih (fun other hother => h other (List.mem_cons_of_mem _ hother)) c hmore
    | lead d => nomatch hunit
    | trail d => nomatch hunit

theorem ofCodeUnits_ne_nil {units : Units} (h : units ≠ []) : ofCodeUnits units ≠ [] := by
  induction units using ofCodeUnits.induct with
  | case1 => exact absurd rfl h
  | case2 c rest ih => exact List.cons_ne_nil _ _
  | case3 c d rest ih => exact List.cons_ne_nil _ _
  | case4 c rest hno ih =>
    rw [ofCodeUnits_lead_alone c hno]
    exact List.cons_ne_nil _ _
  | case5 c rest ih => exact List.cons_ne_nil _ _

/-- A window that does not end in a blank does not end in white space. -/
theorem getLast?_ofCodeUnits {units : Units} (hsound : ∀ unit ∈ units, unit.Sound)
    (hlast : ∀ unit ∈ units.getLast?, unit.isBlank = false) :
    ∀ c ∈ (ofCodeUnits units).getLast?, isWhiteSpace c = false := by
  -- one character more in front
  have hstep {c : Char} {rest : Units} (hc : rest = [] → isWhiteSpace c = false)
      (ih : ∀ d ∈ (ofCodeUnits rest).getLast?, isWhiteSpace d = false) :
      ∀ d ∈ (c :: ofCodeUnits rest).getLast?, isWhiteSpace d = false := by
    intro d hd
    by_cases hrest : rest = []
    · rw [hrest] at hd
      rw [← Option.some.inj hd]
      exact hc hrest
    · have hread := ofCodeUnits_ne_nil hrest
      rw [List.getLast?_cons, List.getLast?_eq_getLast_of_ne_nil hread] at hd
      exact ih d (by rw [List.getLast?_eq_getLast_of_ne_nil hread]; exact hd)
  have htail {unit : CodeUnit} {rest : Units}
      (h : ∀ other ∈ (unit :: rest).getLast?, other.isBlank = false) :
      ∀ other ∈ rest.getLast?, other.isBlank = false := by
    intro other hother
    refine h other ?_
    rw [List.getLast?_cons, Option.mem_def.mp hother]
    rfl
  have hfffd : isWhiteSpace '\uFFFD' = false := by decide
  induction units using ofCodeUnits.induct with
  | case1 =>
    intro c hc
    cases hc
  | case2 c rest ih =>
    refine hstep (fun hrest => ?_) (ih (fun unit hunit =>
      hsound unit (List.mem_cons_of_mem _ hunit)) (htail hlast))
    rw [hrest] at hlast
    exact hlast (.whole c) rfl
  | case3 c d rest ih =>
    refine hstep (fun _ => ?_) (ih (fun unit hunit =>
      hsound unit (List.mem_cons_of_mem _ (List.mem_cons_of_mem _ hunit))) (htail (htail hlast)))
    exact isWhiteSpace_of_wide (hsound (.lead c) List.mem_cons_self)
  | case4 c rest hno ih =>
    rw [ofCodeUnits_lead_alone c hno]
    exact hstep (fun _ => hfffd) (ih (fun unit hunit =>
      hsound unit (List.mem_cons_of_mem _ hunit)) (htail hlast))
  | case5 c rest ih =>
    exact hstep (fun _ => hfffd) (ih (fun unit hunit =>
      hsound unit (List.mem_cons_of_mem _ hunit)) (htail hlast))

theorem trimEnd_of_blank {s blanks : Text} (hs : ∀ c ∈ s.getLast?, isWhiteSpace c = false)
    (hblanks : ∀ c ∈ blanks, isWhiteSpace c = true) : trimEnd (s ++ blanks) = s := by
  unfold trimEnd List.rdropWhile
  rw [List.reverse_append, List.dropWhile_append_of_pos fun c hc =>
    hblanks c (List.mem_reverse.mp hc)]
  have hstart : s.reverse.dropWhile isWhiteSpace = s.reverse := by
    cases hcase : s.reverse with
    | nil => rfl
    | cons c rest =>
      have hlast : s.getLast? = some c := by
        rw [← List.head?_reverse, hcase]
        rfl
      exact List.dropWhile_cons_of_neg (by rw [hs c hlast]; exact Bool.false_ne_true)
  rw [hstart, List.reverse_reverse]

theorem getLast?_trimUnits (units : Units) :
    ∀ unit ∈ (trimUnits units).getLast?, unit.isBlank = false := by
  intro unit hunit
  by_cases hne : (units.dropWhile CodeUnit.isBlank).rdropWhile CodeUnit.isBlank = []
  · unfold trimUnits OpenVac.strip at hunit
    rw [hne] at hunit
    nomatch hunit
  · have hnot := List.rdropWhile_last_not CodeUnit.isBlank _ hne
    unfold trimUnits OpenVac.strip at hunit
    rw [List.getLast?_eq_getLast_of_ne_nil hne] at hunit
    rw [← Option.some.inj hunit]
    exact Bool.eq_false_iff.mpr hnot

theorem head?_trimUnits (units : Units) :
    ∀ unit ∈ (trimUnits units).head?, unit.isBlank = false := by
  intro unit hunit
  have hprefix : trimUnits units <+: units.dropWhile CodeUnit.isBlank := List.rdropWhile_prefix _ _
  have hhead : (units.dropWhile CodeUnit.isBlank).head? = some unit := by
    obtain ⟨more, hmore⟩ := hprefix
    rw [← hmore, List.head?_append, Option.mem_def.mp hunit]
    rfl
  obtain ⟨first, rest, hcons⟩ : ∃ first rest, units.dropWhile CodeUnit.isBlank = first :: rest := by
    cases hcase : units.dropWhile CodeUnit.isBlank with
    | nil =>
      rw [hcase] at hhead
      nomatch hhead
    | cons first rest => exact ⟨first, rest, rfl⟩
  have hne : units.dropWhile CodeUnit.isBlank ≠ [] := by
    rw [hcons]
    exact List.cons_ne_nil _ _
  have hnot := List.head_dropWhile_not CodeUnit.isBlank hne
  rw [List.head?_eq_some_head hne] at hhead
  rw [← Option.some.inj hhead]
  exact hnot

/-- **A window's text is trimmed unit by unit.** -/
theorem trim_ofCodeUnits {units : Units} (h : ∀ unit ∈ units, unit.Sound) :
    trim (ofCodeUnits units) = ofCodeUnits (trimUnits units) := by
  have hsplit : units.dropWhile CodeUnit.isBlank =
      trimUnits units ++ (units.dropWhile CodeUnit.isBlank).rtakeWhile CodeUnit.isBlank :=
    List.rdropWhile_append_rtakeWhile.symm
  have hblanks : ∀ unit ∈ (units.dropWhile CodeUnit.isBlank).rtakeWhile CodeUnit.isBlank,
      unit.isBlank = true := fun unit hunit => List.mem_rtakeWhile_imp hunit
  have hnext : ∀ d more, (units.dropWhile CodeUnit.isBlank).rtakeWhile CodeUnit.isBlank ≠
      .trail d :: more := by
    intro d more heq
    have hd := hblanks (.trail d) (by rw [heq]; exact List.mem_cons_self)
    nomatch hd
  have hsound : ∀ unit ∈ trimUnits units, unit.Sound := by
    intro unit hunit
    refine h unit ((List.dropWhile_suffix CodeUnit.isBlank).subset ?_)
    exact (List.rdropWhile_prefix CodeUnit.isBlank _).subset hunit
  unfold trim
  rw [trimStart_ofCodeUnits h, hsplit, ofCodeUnits_append hnext]
  exact trimEnd_of_blank (getLast?_ofCodeUnits hsound (getLast?_trimUnits units))
    (ofCodeUnits_blank hblanks)

/-- The line feeds of a window. -/
theorem count_ofCodeUnits {units : Units} (h : ∀ unit ∈ units, unit.Sound) :
    List.count '\n' (ofCodeUnits units) = List.count (.whole '\n') units := by
  have hwide {c : Char} (hc : ¬ c.toNat < 0x10000) : '\n' ≠ c := by
    rintro rfl
    exact hc (by decide)
  have hlead (c : Char) : CodeUnit.lead c ≠ .whole '\n' := fun heq => nomatch heq
  have htrail (c : Char) : CodeUnit.trail c ≠ .whole '\n' := fun heq => nomatch heq
  induction units using ofCodeUnits.induct with
  | case1 => rfl
  | case2 c rest ih =>
    have hrest := ih fun unit hunit => h unit (List.mem_cons_of_mem _ hunit)
    unfold ofCodeUnits
    by_cases hc : c = '\n'
    · rw [hc, List.count_cons_self, List.count_cons_self, hrest]
    · rw [List.count_cons_of_ne hc, List.count_cons_of_ne (fun heq => hc (CodeUnit.whole.inj heq)),
        hrest]
  | case3 c d rest ih =>
    have hrest := ih fun unit hunit =>
      h unit (List.mem_cons_of_mem _ (List.mem_cons_of_mem _ hunit))
    have hc := hwide (h (.lead c) List.mem_cons_self)
    unfold ofCodeUnits
    rw [List.count_cons_of_ne (Ne.symm hc), List.count_cons_of_ne (hlead c),
      List.count_cons_of_ne (htrail d), hrest]
  | case4 c rest hno ih =>
    have hrest := ih fun unit hunit => h unit (List.mem_cons_of_mem _ hunit)
    rw [ofCodeUnits_lead_alone c hno, List.count_cons_of_ne (by decide),
      List.count_cons_of_ne (hlead c), hrest]
  | case5 c rest ih =>
    have hrest := ih fun unit hunit => h unit (List.mem_cons_of_mem _ hunit)
    unfold ofCodeUnits
    rw [List.count_cons_of_ne (by decide), List.count_cons_of_ne (htrail c), hrest]

end JsString
