/-
  File:      OpenVac/Lib/JsText.lean
  Subject:   Facts about JavaScript strings: plain texts, lengths, pieces.

  * `isPlain` -- printing ASCII without blanks: `trim` and `normalize` leave such a text alone.
  * `utf16Length_slice_le`, `utf16Length_trim_le` -- a slice is no longer than its bounds say, and
    a trimmed text no longer than the text.
  * `split_append_cons`, `split_eq_singleton` -- a text is cut at every separator and nowhere else.
  * `RandomUuid` -- an identifier as `crypto.randomUUID()` writes it.
-/
import OpenVac.Lib.JsString
import Mathlib.Algebra.Order.BigOperators.Group.List
import Mathlib.Algebra.Order.Group.Nat

namespace JsString

/-! ## 1. Plain texts -/

/-- A printing ASCII character that is no blank. -/
def isPlain (c : Char) : Bool := 0x21 ≤ c.toNat && c.toNat ≤ 0x7E

theorem narrow_of_plain {c : Char} (h : isPlain c = true) : narrow c = c := by
  have hle : c.toNat ≤ 0x7E := by
    simp only [isPlain, Bool.and_eq_true, decide_eq_true_eq] at h
    exact h.2
  unfold narrow
  rw [if_neg]
  omega

theorem isWidthOnly_of_plain {c : Char} (h : isPlain c = true) : isWidthOnly c = true := by
  simp only [isPlain, Bool.and_eq_true, decide_eq_true_eq] at h
  have hle : c.toNat ≤ 0x7F := by omega
  simp [isWidthOnly, hle]

theorem not_whiteSpace_of_plain {c : Char} (h : isPlain c = true) : isWhiteSpace c = false := by
  simp only [isPlain, Bool.and_eq_true, decide_eq_true_eq] at h
  unfold isWhiteSpace isWhiteSpaceCode
  simp only [Bool.or_eq_false_iff, Bool.and_eq_false_iff, decide_eq_false_iff_not,
    beq_eq_false_iff_ne, ne_eq]
  omega

theorem utf16Length_of_plain {s : Text} (h : s.all isPlain = true) : utf16Length s = s.length := by
  unfold utf16Length
  induction s with
  | nil => rfl
  | cons c rest ih =>
    rw [List.all_cons, Bool.and_eq_true] at h
    have hc : c.toNat < 0x10000 := by
      have hle := h.1
      simp only [isPlain, Bool.and_eq_true, decide_eq_true_eq] at hle
      omega
    rw [List.map_cons, List.sum_cons, ih h.2, if_pos hc, List.length_cons]
    omega

theorem trim_of_plain {s : Text} (h : s.all isPlain = true) : trim s = s := by
  have hno : ∀ c ∈ s, isWhiteSpace c = false := fun c hc =>
    not_whiteSpace_of_plain (List.all_eq_true.mp h c hc)
  have hstart : trimStart s = s := by
    cases s with
    | nil => rfl
    | cons c rest =>
      have hc := hno c List.mem_cons_self
      unfold trimStart
      rw [List.dropWhile_cons, hc]
      rfl
  unfold trim
  rw [hstart]
  unfold trimEnd
  rw [List.rdropWhile_eq_self_iff]
  intro hne
  simp [hno _ (List.getLast_mem hne)]

theorem nfkc_of_plain [UnicodeTables] {s : Text} (h : s.all isPlain = true) : nfkc s = s := by
  have hwidth : s.all isWidthOnly = true := by
    rw [List.all_eq_true] at h ⊢
    exact fun c hc => isWidthOnly_of_plain (h c hc)
  unfold nfkc
  rw [if_pos hwidth]
  calc
    s.map narrow = s.map id :=
      List.map_congr_left fun c hc => narrow_of_plain (List.all_eq_true.mp h c hc)
    _ = s := List.map_id s

/-! ## 2. Lengths -/

theorem utf16Length_cons (c : Char) (s : Text) :
    utf16Length (c :: s) = (if c.toNat < 0x10000 then 1 else 2) + utf16Length s := by
  unfold utf16Length
  rw [List.map_cons, List.sum_cons]

theorem utf16Length_append (s t : Text) :
    utf16Length (s ++ t) = utf16Length s + utf16Length t := by
  unfold utf16Length
  rw [List.map_append, List.sum_append]

theorem utf16Length_le_of_sublist {s t : Text} (h : s.Sublist t) :
    utf16Length s ≤ utf16Length t :=
  List.Sublist.sum_le_sum (h.map _) fun _ _ => Nat.zero_le _

theorem trim_sublist (s : Text) : (trim s).Sublist s :=
  (List.rdropWhile_prefix _ _).sublist.trans (List.dropWhile_suffix _).sublist

theorem utf16Length_trim_le (s : Text) : utf16Length (trim s) ≤ utf16Length s :=
  utf16Length_le_of_sublist (trim_sublist s)

theorem clip_sublist (units : Nat) (s : Text) : (clip units s).Sublist s := by
  induction s generalizing units with
  | nil => exact List.Sublist.refl _
  | cons c rest ih =>
    unfold clip
    dsimp only
    by_cases hroom : (if c.toNat < 0x10000 then 1 else 2) ≤ units
    · rw [if_pos hroom]
      exact (ih _).cons_cons c
    · rw [if_neg hroom]
      exact List.nil_sublist _

theorem utf16Length_clip_le (units : Nat) (s : Text) : utf16Length (clip units s) ≤ units := by
  induction s generalizing units with
  | nil => exact Nat.zero_le _
  | cons c rest ih =>
    unfold clip
    dsimp only
    by_cases hroom : (if c.toNat < 0x10000 then 1 else 2) ≤ units
    · have hrest := ih (units - if c.toNat < 0x10000 then 1 else 2)
      rw [if_pos hroom, utf16Length_cons]
      omega
    · rw [if_neg hroom]
      exact Nat.zero_le _

/-- A unit that is no half of a pair. -/
def CodeUnit.Narrow : CodeUnit → Prop
  | .whole c => c.toNat < 0x10000
  | .lead _ | .trail _ => True

theorem codeUnits_narrow (s : Text) : ∀ unit ∈ codeUnits s, unit.Narrow := by
  intro unit hunit
  obtain ⟨c, -, hunit⟩ := List.mem_flatMap.mp hunit
  split at hunit
  · rename_i hc
    rw [List.mem_singleton.mp hunit]
    exact hc
  · simp only [List.mem_cons, List.not_mem_nil, or_false] at hunit
    rcases hunit with rfl | rfl <;> exact True.intro

/-- Units read as text are as many units at most. -/
theorem utf16Length_ofCodeUnits_le (units : List CodeUnit) (h : ∀ unit ∈ units, unit.Narrow) :
    utf16Length (ofCodeUnits units) ≤ units.length := by
  induction units using ofCodeUnits.induct with
  | case1 => exact Nat.le_refl 0
  | case2 c rest ih =>
    have hc : c.toNat < 0x10000 := h (.whole c) List.mem_cons_self
    have hrest := ih fun unit hunit => h unit (List.mem_cons_of_mem _ hunit)
    unfold ofCodeUnits
    rw [utf16Length_cons, if_pos hc, List.length_cons]
    omega
  | case3 c d rest ih =>
    have hrest := ih fun unit hunit =>
      h unit (List.mem_cons_of_mem _ (List.mem_cons_of_mem _ hunit))
    unfold ofCodeUnits
    rw [utf16Length_cons, List.length_cons, List.length_cons]
    split <;> omega
  | case4 c rest hno ih =>
    have hrest := ih fun unit hunit => h unit (List.mem_cons_of_mem _ hunit)
    have hlow : ('\uFFFD').toNat < 0x10000 := by decide
    rw [ofCodeUnits.eq_4 _ _ hno, utf16Length_cons, if_pos hlow, List.length_cons]
    omega
  | case5 c rest ih =>
    have hrest := ih fun unit hunit => h unit (List.mem_cons_of_mem _ hunit)
    have hlow : ('\uFFFD').toNat < 0x10000 := by decide
    unfold ofCodeUnits
    rw [utf16Length_cons, if_pos hlow, List.length_cons]
    omega

theorem utf16Length_slice_le (start stop : Nat) (s : Text) :
    utf16Length (slice start stop s) ≤ stop - start := by
  unfold slice
  refine Nat.le_trans (utf16Length_ofCodeUnits_le _ ?_) ?_
  · intro unit hunit
    exact codeUnits_narrow s unit (List.mem_of_mem_take (List.mem_of_mem_drop hunit))
  · rw [List.length_drop, List.length_take]
    omega

theorem codeUnits_of_plain {s : Text} (h : s.all isPlain = true) :
    codeUnits s = s.map CodeUnit.whole := by
  induction s with
  | nil => rfl
  | cons c rest ih =>
    rw [List.all_cons, Bool.and_eq_true] at h
    have hc : c.toNat < 0x10000 := by
      have hle := h.1
      simp only [isPlain, Bool.and_eq_true, decide_eq_true_eq] at hle
      omega
    unfold codeUnits at ih ⊢
    rw [List.flatMap_cons, if_pos hc, ih h.2]
    rfl

theorem ofCodeUnits_whole (s : Text) : ofCodeUnits (s.map CodeUnit.whole) = s := by
  induction s with
  | nil => rfl
  | cons c rest ih =>
    rw [List.map_cons]
    unfold ofCodeUnits
    rw [ih]

/-- In a plain text, units are characters. -/
theorem slice_of_plain {s : Text} (h : s.all isPlain = true) (start stop : Nat) :
    slice start stop s = (s.take stop).drop start := by
  unfold slice
  rw [codeUnits_of_plain h, ← List.map_take, ← List.map_drop, ofCodeUnits_whole]

/-! ## 3. Pieces -/

theorem join_singleton (separator s : Text) : join separator [s] = s :=
  List.intercalate_singleton

theorem join_cons_cons (separator s t : Text) (more : List Text) :
    join separator (s :: t :: more) = s ++ (separator ++ join separator (t :: more)) := by
  unfold join
  rw [List.intercalate_cons_cons, List.append_assoc]

theorem split_ne_nil (separator : Char) (s : Text) : split separator s ≠ [] := by
  cases s with
  | nil => exact List.cons_ne_nil _ _
  | cons c rest =>
    unfold split
    split
    · exact List.cons_ne_nil _ _
    · split <;> exact List.cons_ne_nil _ _

/-- A text without the separator is one piece. -/
theorem split_eq_singleton {separator : Char} {s : Text} (h : separator ∉ s) :
    split separator s = [s] := by
  induction s with
  | nil => rfl
  | cons c rest ih =>
    rw [List.mem_cons, not_or] at h
    unfold split
    rw [if_neg (Ne.symm h.1), ih h.2]

/-- **A separator cuts.** -/
theorem split_append_cons (separator : Char) (s t : Text) :
    split separator (s ++ separator :: t) = split separator s ++ split separator t := by
  induction s with
  | nil =>
    rw [List.nil_append]
    conv_lhs => unfold split
    rw [if_pos rfl]
    rfl
  | cons c rest ih =>
    rw [List.cons_append]
    conv_lhs => unfold split
    conv_rhs => arg 1; unfold split
    rw [ih]
    split
    · rfl
    · cases hpieces : split separator rest with
      | nil => exact absurd hpieces (split_ne_nil separator rest)
      | cons first more => rfl

/-- A piece is empty before a separator, one of the rest's, or begins with the first
    character. -/
theorem mem_split_cons {separator d : Char} {rest piece : Text}
    (h : piece ∈ split separator (d :: rest)) :
    piece = [] ∨ piece ∈ split separator rest ∨
      d ≠ separator ∧ ∃ first ∈ split separator rest, piece = d :: first := by
  unfold split at h
  split at h
  · exact (List.mem_cons.mp h).imp_right .inl
  · next hne =>
    cases hpieces : split separator rest with
    | nil => exact absurd hpieces (split_ne_nil separator rest)
    | cons first more =>
      rw [hpieces] at h
      rcases List.mem_cons.mp h with h | h
      · exact .inr (.inr ⟨hne, first, List.mem_cons_self, h⟩)
      · exact .inr (.inl (List.mem_cons_of_mem _ h))

/-- No piece has the separator. -/
theorem not_mem_of_mem_split {separator : Char} {s piece : Text}
    (h : piece ∈ split separator s) : separator ∉ piece := by
  induction s generalizing piece with
  | nil =>
    rw [List.mem_singleton.mp h]
    exact List.not_mem_nil
  | cons c rest ih =>
    rcases mem_split_cons h with rfl | h | ⟨hne, first, hfirst, rfl⟩
    · exact List.not_mem_nil
    · exact ih h
    · rw [List.mem_cons, not_or]
      exact ⟨fun he => hne he.symm, ih hfirst⟩

/-- The characters of a piece are characters of the text. -/
theorem mem_of_mem_split {separator : Char} {s piece : Text} (h : piece ∈ split separator s) :
    ∀ c ∈ piece, c ∈ s := by
  induction s generalizing piece with
  | nil =>
    rw [List.mem_singleton.mp h]
    exact fun _ hc => hc
  | cons d rest ih =>
    intro c hc
    rcases mem_split_cons h with rfl | h | ⟨-, first, hfirst, rfl⟩
    · nomatch hc
    · exact List.mem_cons_of_mem _ (ih h c hc)
    · rcases List.mem_cons.mp hc with rfl | hc
      · exact List.mem_cons_self
      · exact List.mem_cons_of_mem _ (ih hfirst c hc)

/-- **Joined texts are cut apart again**, if none has the separator. -/
theorem split_join {separator : Char} {parts : List Text} (hne : parts ≠ [])
    (h : ∀ part ∈ parts, separator ∉ part) : split separator (join [separator] parts) = parts := by
  induction parts with
  | nil => exact absurd rfl hne
  | cons part rest ih =>
    have hpart := split_eq_singleton (h part List.mem_cons_self)
    cases rest with
    | nil =>
      rw [join_singleton, hpart]
    | cons next more =>
      have hrest := ih (List.cons_ne_nil _ _) fun p hp => h p (List.mem_cons_of_mem _ hp)
      rw [join_cons_cons, List.singleton_append, split_append_cons, hpart, hrest]
      rfl

/-- Two separators in a row leave an empty piece. -/
theorem nil_mem_split {separator : Char} {s : Text}
    (h : includes s [separator, separator] = true) : [] ∈ split separator s := by
  obtain ⟨before, after, rfl⟩ := of_decide_eq_true h
  rw [List.append_assoc, List.cons_append, List.singleton_append, split_append_cons]
  refine List.mem_append_right _ ?_
  unfold split
  rw [if_pos rfl]
  exact List.mem_cons_self

theorem mem_join {separator : Char} {parts : List Text} {c : Char}
    (h : c ∈ join [separator] parts) : c = separator ∨ ∃ part ∈ parts, c ∈ part := by
  induction parts with
  | nil => exact absurd h List.not_mem_nil
  | cons part rest ih =>
    cases rest with
    | nil =>
      rw [join_singleton] at h
      exact Or.inr ⟨part, List.mem_cons_self, h⟩
    | cons next more =>
      rw [join_cons_cons] at h
      rcases List.mem_append.mp h with h | h
      · exact Or.inr ⟨part, List.mem_cons_self, h⟩
      · rcases List.mem_append.mp h with h | h
        · exact Or.inl (List.mem_singleton.mp h)
        · rcases ih h with h | ⟨p, hp, h⟩
          · exact Or.inl h
          · exact Or.inr ⟨p, List.mem_cons_of_mem _ hp, h⟩

/-! ## 4. Identifiers -/

/-- An identifier as `crypto.randomUUID()` writes it. -/
structure RandomUuid where
  text : Text
  length_eq : text.length = 36
  chars : text.all (fun c => isDigit c || decide ('a' ≤ c ∧ c ≤ 'f') || c == '-') = true

theorem RandomUuid.plain (id : RandomUuid) : id.text.all isPlain = true := by
  rw [List.all_eq_true]
  intro c hc
  have hchar := List.all_eq_true.mp id.chars c hc
  simp only [isDigit, Bool.or_eq_true, decide_eq_true_eq, beq_iff_eq] at hchar
  simp only [isPlain, Bool.and_eq_true, decide_eq_true_eq]
  rcases hchar with (⟨hlo, hhi⟩ | ⟨hlo, hhi⟩) | rfl
  · have hlo' : ('0').toNat ≤ c.toNat := hlo
    have hhi' : c.toNat ≤ ('9').toNat := hhi
    simp at hlo' hhi'
    omega
  · have hlo' : ('a').toNat ≤ c.toNat := hlo
    have hhi' : c.toNat ≤ ('f').toNat := hhi
    simp at hlo' hhi'
    omega
  · decide

end JsString
