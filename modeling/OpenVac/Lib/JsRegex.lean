/-
  File:      OpenVac/Lib/JsRegex.lean
  Subject:   ECMAScript regular expressions with the flags `iu`.

  * `Regex` -- patterns without captures and look-around.
  * `Matches r s s'` -- the semantics without priorities: `r` matches the text between two cursors.
  * `search r k s` -- the backtracking matcher, in continuation style and in the priority order of
    the specification; `search_iff` -- it succeeds exactly if there is a match with which the
    continuation succeeds.
  * `test r text` -- `r.test(text)`, `test_iff`; `execAll` -- the matches of a global pattern.
  * `matches_lit`, `test_of_infix` -- a literal matches what folds to it; a text with a match inside
    passes the test.
-/
import OpenVac.Lib.JsString

namespace JsRegex

/-- Simple case folding of a code point as far as it ends in ASCII: a pattern's letters are ASCII
    or have no case, so no other folding can make a difference. -/
def canonicalize (n : Nat) : Nat :=
  bif 65 ≤ n && n ≤ 90 then n + 32
  else bif n == 0x17F then 's'.toNat
  else bif n == 0x212A then 'k'.toNat
  else n

def within (lo hi : Char) (n : Nat) : Bool := lo.toNat ≤ n && n ≤ hi.toNat

/-- The word characters of `\b` under `iu`: those that fold to `[a-z0-9_]`. -/
def isWordChar (c : Char) : Bool :=
  let n := canonicalize c.toNat
  within 'a' 'z' n || within '0' '9' n || n == '_'.toNat

def isLineTerminator (c : Char) : Bool :=
  let n := c.toNat
  n == 0xA || n == 0xD || n == 0x2028 || n == 0x2029

/-- A position in a text: the character before it and the text after it. -/
structure Cursor where
  prev : Option Char
  rest : List Char

/-- `\b`: exactly one side is a word character. -/
def Cursor.atBoundary (s : Cursor) : Bool :=
  (s.prev.any isWordChar) != (s.rest.head?.any isWordChar)

/-- A pattern. `assert` matches the empty text where its condition holds; `rep r min more greedy`
    repeats `min` to `min + more` times, or without bound, and tries to stop first when lazy. -/
inductive Regex where
  | empty
  | char (c : Char)
  | set (p : Char → Bool)
  | assert (p : Cursor → Bool)
  | cat (a b : Regex)
  | alt (a b : Regex)
  | rep (r : Regex) (min : Nat) (more : Option Nat) (greedy : Bool)

/-! ## 1. Patterns -/

def lit (text : String) : Regex := text.toList.foldr (fun c r => .cat (.char c) r) .empty

/-- A literal of a pattern without the flag `i`. -/
def exact (text : String) : Regex := text.toList.foldr (fun c r => .cat (.set fun d => d.toNat == c.toNat) r) .empty

def cats (rs : List Regex) : Regex := rs.foldr .cat .empty

def alts : List Regex → Regex
  | [] => .set fun _ => false
  | [r] => r
  | r :: rs => .alt r (alts rs)

/-- `(?:a|b|…)` of plain words. -/
def words (ws : List String) : Regex := alts (ws.map lit)

def exactWords (ws : List String) : Regex := alts (ws.map exact)

/-- A character equals one of a list, up to case. -/
def amongFolded (chars : List Char) (c : Char) : Bool :=
  chars.any fun d => canonicalize d.toNat == canonicalize c.toNat

/-- A class of characters, up to case, and those whose folded code point has a property. -/
def oneOfOr (chars : String) (p : Nat → Bool) : Regex :=
  .set fun c => amongFolded chars.toList c || p (canonicalize c.toNat)

/-- `[…]`. -/
def oneOf (chars : String) : Regex := .set (amongFolded chars.toList)

/-- `[^…]`. -/
def noneOfOr (chars : String) (p : Nat → Bool) : Regex :=
  .set fun c => !(amongFolded chars.toList c || p (canonicalize c.toNat))

def noneOf (chars : String) : Regex := .set fun c => !amongFolded chars.toList c

/-- `[…]` without the flag `i`. -/
def oneOfExactOr (chars : String) (p : Nat → Bool) : Regex :=
  .set fun c => (chars.toList.any fun d => d.toNat == c.toNat) || p c.toNat

/-- `\b`. -/
def wordBoundary : Regex := .assert Cursor.atBoundary

/-- `^`. -/
def start : Regex := .assert fun s => s.prev.isNone

/-- `$`. -/
def finish : Regex := .assert fun s => s.rest.isEmpty

/-- `.`. -/
def dot : Regex := .set fun c => !isLineTerminator c

/-- `\s`. -/
def space : Regex := .set JsString.isWhiteSpace

/-- `\d`. -/
def digit : Regex := .set fun c => within '0' '9' c.toNat

/-- `r{0,n}`. -/
def upTo (n : Nat) (r : Regex) : Regex := .rep r 0 (some n) true

/-- `r?`. -/
def opt (r : Regex) : Regex := upTo 1 r

/-- `r*`. -/
def star (r : Regex) : Regex := .rep r 0 none true

/-- `r+`. -/
def plus (r : Regex) : Regex := .rep r 1 none true

/-- `r{0,n}?`. -/
def lazyUpTo (n : Nat) (r : Regex) : Regex := .rep r 0 (some n) false

/-- `.{0,n}`. -/
def gap (n : Nat) : Regex := upTo n dot

/-! ## 2. Semantics -/

/-- `n` matches in a row. -/
inductive Repeats (m : Cursor → Cursor → Prop) : Nat → Cursor → Cursor → Prop where
  | zero (s : Cursor) : Repeats m 0 s s
  | succ {n : Nat} {s s₁ s' : Cursor} (h : m s s₁) (t : Repeats m n s₁ s') : Repeats m (n + 1) s s'

/-- `r` matches the text from the first cursor to the second. -/
def Matches : Regex → Cursor → Cursor → Prop
  | .empty, s, s' => s' = s
  | .char c, s, s' => ∃ d rest, s.rest = d :: rest ∧ canonicalize d.toNat = canonicalize c.toNat ∧
      s' = ⟨some d, rest⟩
  | .set p, s, s' => ∃ d rest, s.rest = d :: rest ∧ p d = true ∧ s' = ⟨some d, rest⟩
  | .assert p, s, s' => p s = true ∧ s' = s
  | .cat a b, s, s' => ∃ s₁, Matches a s s₁ ∧ Matches b s₁ s'
  | .alt a b, s, s' => Matches a s s' ∨ Matches b s s'
  | .rep r min more _, s, s' => ∃ n, min ≤ n ∧ (∀ m, more = some m → n ≤ min + m) ∧
      Repeats (Matches r) n s s'

/-! ## 3. The matcher -/

/-- A matcher in continuation style. -/
abbrev Matcher (β : Type) := (Cursor → Option β) → Cursor → Option β

/-- Exactly `n` rounds of a matcher. -/
def times {β : Type} (m : Matcher β) : Nat → Matcher β
  | 0, k, s => k s
  | n + 1, k, s => m (times m n k) s

/-- At most `n` rounds of a matcher, as many as possible first or as few as possible first. -/
def atMost {β : Type} (m : Matcher β) (greedy : Bool) : Nat → Matcher β
  | 0, k, s => k s
  | n + 1, k, s =>
      if greedy then (m (atMost m greedy n k) s).or (k s) else (k s).or (m (atMost m greedy n k) s)

/-- One character that a test accepts. -/
def oneChar {β : Type} (p : Char → Bool) : Matcher β := fun k s =>
  match s.rest with
  | [] => none
  | d :: rest => if p d then k ⟨some d, rest⟩ else none

/-- The backtracking matcher. A round that consumes nothing changes nothing, so an unbounded
    repetition makes as many rounds as there are characters left at most. -/
def search {β : Type} : Regex → Matcher β
  | .empty, k, s => k s
  | .char c, k, s => oneChar (fun d => canonicalize d.toNat == canonicalize c.toNat) k s
  | .set p, k, s => oneChar p k s
  | .assert p, k, s => if p s then k s else none
  | .cat a b, k, s => search a (search b k) s
  | .alt a b, k, s => (search a k s).or (search b k s)
  | .rep r min more greedy, k, s =>
      times (search r) min (fun s => atMost (search r) greedy (more.getD s.rest.length) k s) s

/-- A match that begins at the cursor's place or later. -/
def testFrom (r : Regex) (prev : Option Char) : List Char → Bool
  | [] => (search r (fun _ => some ()) ⟨prev, []⟩).isSome
  | c :: rest =>
      (search r (fun _ => some ()) ⟨prev, c :: rest⟩).isSome || testFrom r (some c) rest

/-- `r.test(text)`. -/
def test (r : Regex) (text : List Char) : Bool := testFrom r none text

/-- The matches of a global pattern from a place on, as start and end; a match of nothing steps
    one character on. -/
def execFrom (r : Regex) : Nat → Nat → Option Char → List Char → List (Nat × Nat)
  | 0, _, _, _ => []
  | fuel + 1, at_, prev, text =>
      match search r some ⟨prev, text⟩ with
      | some s =>
          let stop := at_ + (text.length - s.rest.length)
          if stop = at_ then
            match text with
            | [] => [(at_, at_)]
            | c :: rest => (at_, at_) :: execFrom r fuel (at_ + 1) (some c) rest
          else (at_, stop) :: execFrom r fuel stop s.prev s.rest
      | none =>
          match text with
          | [] => []
          | c :: rest => execFrom r fuel (at_ + 1) (some c) rest

/-- `[...text.matchAll(r)]`. -/
def execAll (r : Regex) (text : List Char) : List (Nat × Nat) :=
  execFrom r (text.length + 1) 0 none text

/-- `text.replace(r, replacement)` with a global pattern. -/
def replaceAll (r : Regex) (replacement : List Char) (text : List Char) : List Char :=
  let go := (execAll r text).foldl
    (fun (acc : List Char × Nat) m =>
      (acc.1 ++ (text.drop acc.2).take (m.1 - acc.2) ++ replacement, m.2)) ([], 0)
  go.1 ++ text.drop go.2

/-! ## 4. The matcher is right -/

section Correct

variable {β : Type}

/-- A matcher succeeds exactly if there is a match of a relation with which its continuation
    succeeds. -/
def Finds (m : Matcher β) (R : Cursor → Cursor → Prop) : Prop :=
  ∀ k s, (m k s).isSome = true ↔ ∃ s', R s s' ∧ (k s').isSome = true

/-- A match stands still or consumes. -/
def Consumes (R : Cursor → Cursor → Prop) : Prop :=
  ∀ s s', R s s' → s' = s ∨ s'.rest.length < s.rest.length

theorem Repeats.append {R : Cursor → Cursor → Prop} {i j : Nat} {s s₁ s' : Cursor}
    (h : Repeats R i s s₁) (t : Repeats R j s₁ s') : Repeats R (i + j) s s' := by
  induction h with
  | zero => rwa [Nat.zero_add]
  | succ h _ ih =>
    rw [Nat.succ_add]
    exact Repeats.succ h (ih t)

theorem Repeats.split {R : Cursor → Cursor → Prop} {i j : Nat} {s s' : Cursor}
    (h : Repeats R (i + j) s s') : ∃ s₁, Repeats R i s s₁ ∧ Repeats R j s₁ s' := by
  induction i generalizing s with
  | zero =>
    rw [Nat.zero_add] at h
    exact ⟨s, Repeats.zero s, h⟩
  | succ i ih =>
    rw [Nat.succ_add] at h
    cases h with
    | succ h t =>
      obtain ⟨s₁, h1, h2⟩ := ih t
      exact ⟨s₁, Repeats.succ h h1, h2⟩

theorem Consumes.repeats {R : Cursor → Cursor → Prop} (hc : Consumes R) {n : Nat} {s s' : Cursor}
    (h : Repeats R n s s') : s' = s ∨ s'.rest.length < s.rest.length := by
  induction h with
  | zero => exact Or.inl rfl
  | succ h _ ih =>
    rcases hc _ _ h with rfl | h1
    · exact ih
    · rcases ih with rfl | h2
      · exact Or.inr h1
      · exact Or.inr (Nat.lt_trans h2 h1)

/-- Rounds that stand still can be left out: no more rounds than characters are needed. -/
theorem Consumes.shorten {R : Cursor → Cursor → Prop} (hc : Consumes R) {n : Nat} {s s' : Cursor}
    (h : Repeats R n s s') : ∃ j, j ≤ s.rest.length ∧ Repeats R j s s' := by
  induction h with
  | zero s => exact ⟨0, Nat.zero_le _, Repeats.zero s⟩
  | succ h _ ih =>
    obtain ⟨j, hj, hr⟩ := ih
    rcases hc _ _ h with rfl | hlt
    · exact ⟨j, hj, hr⟩
    · exact ⟨j + 1, by omega, Repeats.succ h hr⟩

theorem Finds.times {m : Matcher β} {R : Cursor → Cursor → Prop} (hm : Finds m R) (n : Nat) :
    Finds (JsRegex.times m n) (Repeats R n) := by
  intro k
  induction n with
  | zero =>
    intro s
    constructor
    · intro h
      exact ⟨s, Repeats.zero s, h⟩
    · rintro ⟨s', h, hk⟩
      cases h
      exact hk
  | succ n ih =>
    intro s
    show (m (JsRegex.times m n k) s).isSome = true ↔ _
    rw [hm]
    constructor
    · rintro ⟨s₁, h1, h2⟩
      obtain ⟨s', h2, hk⟩ := (ih s₁).mp h2
      exact ⟨s', Repeats.succ h1 h2, hk⟩
    · rintro ⟨s', h, hk⟩
      cases h with
      | succ h1 h2 => exact ⟨_, h1, (ih _).mpr ⟨s', h2, hk⟩⟩

theorem Finds.atMost {m : Matcher β} {R : Cursor → Cursor → Prop} (hm : Finds m R)
    (greedy : Bool) (n : Nat) :
    Finds (JsRegex.atMost m greedy n) (fun s s' => ∃ j, j ≤ n ∧ Repeats R j s s') := by
  intro k
  induction n with
  | zero =>
    intro s
    constructor
    · intro h
      exact ⟨s, ⟨0, Nat.le_refl 0, Repeats.zero s⟩, h⟩
    · rintro ⟨s', ⟨j, hj, h⟩, hk⟩
      obtain rfl := Nat.le_zero.mp hj
      cases h
      exact hk
  | succ n ih =>
    intro s
    have horder : (JsRegex.atMost m greedy (n + 1) k s).isSome = true ↔
        (k s).isSome = true ∨ (m (JsRegex.atMost m greedy n k) s).isSome = true := by
      cases greedy with
      | true =>
        show ((m (JsRegex.atMost m true n k) s).or (k s)).isSome = true ↔ _
        rw [Option.isSome_or, Bool.or_eq_true, or_comm]
      | false =>
        show ((k s).or (m (JsRegex.atMost m false n k) s)).isSome = true ↔ _
        rw [Option.isSome_or, Bool.or_eq_true]
    rw [horder, hm]
    constructor
    · rintro (h | ⟨s₁, h1, h2⟩)
      · exact ⟨s, ⟨0, Nat.zero_le _, Repeats.zero s⟩, h⟩
      · obtain ⟨s', ⟨j, hj, h2⟩, hk⟩ := (ih s₁).mp h2
        exact ⟨s', ⟨j + 1, Nat.succ_le_succ hj, Repeats.succ h1 h2⟩, hk⟩
    · rintro ⟨s', ⟨j, hj, h⟩, hk⟩
      cases h with
      | zero => exact Or.inl hk
      | succ h1 h2 =>
        exact Or.inr ⟨_, h1, (ih _).mpr ⟨s', ⟨_, Nat.le_of_succ_le_succ hj, h2⟩, hk⟩⟩

theorem oneChar_iff {p : Char → Bool} {k : Cursor → Option β} {s : Cursor} :
    (oneChar p k s).isSome = true ↔
      ∃ d rest, s.rest = d :: rest ∧ p d = true ∧ (k ⟨some d, rest⟩).isSome = true := by
  unfold oneChar
  split
  · next h =>
    rw [h]
    exact ⟨fun h => absurd h Bool.false_ne_true, fun ⟨_, _, h, _⟩ => nomatch h⟩
  · next d rest h =>
    rw [h]
    constructor
    · intro hk
      by_cases hp : p d = true
      · rw [if_pos hp] at hk
        exact ⟨d, rest, rfl, hp, hk⟩
      · rw [if_neg hp] at hk
        exact absurd hk Bool.false_ne_true
    · rintro ⟨d', rest', e, h1, h2⟩
      obtain ⟨rfl, rfl⟩ := List.cons.inj e
      rw [if_pos h1]
      exact h2

theorem matches_consumes (r : Regex) : Consumes (Matches r) := by
  induction r with
  | empty => exact fun s s' h => Or.inl h
  | char c =>
    rintro s s' ⟨d, rest, h, _, rfl⟩
    rw [h]
    exact Or.inr (Nat.lt_succ_self _)
  | set p =>
    rintro s s' ⟨d, rest, h, _, rfl⟩
    rw [h]
    exact Or.inr (Nat.lt_succ_self _)
  | assert p => exact fun s s' h => Or.inl h.2
  | cat a b iha ihb =>
    rintro s s' ⟨s₁, h1, h2⟩
    rcases iha _ _ h1 with rfl | h1
    · exact ihb _ _ h2
    · rcases ihb _ _ h2 with rfl | h2
      · exact Or.inr h1
      · exact Or.inr (Nat.lt_trans h2 h1)
  | alt a b iha ihb =>
    rintro s s' (h | h)
    · exact iha _ _ h
    · exact ihb _ _ h
  | rep r min more greedy ih =>
    rintro s s' ⟨n, _, _, h⟩
    exact ih.repeats h

/-- **The matcher succeeds exactly if there is a match with which its continuation does.** -/
theorem search_iff (r : Regex) : Finds (search (β := β) r) (Matches r) := by
  induction r with
  | empty =>
    intro k s
    exact ⟨fun h => ⟨s, rfl, h⟩, fun ⟨_, e, h⟩ => e ▸ h⟩
  | char c =>
    intro k s
    show (oneChar _ k s).isSome = true ↔ _
    rw [oneChar_iff]
    constructor
    · rintro ⟨d, rest, h, hc, hk⟩
      exact ⟨_, ⟨d, rest, h, beq_iff_eq.mp hc, rfl⟩, hk⟩
    · rintro ⟨_, ⟨d, rest, h, hc, rfl⟩, hk⟩
      exact ⟨d, rest, h, beq_iff_eq.mpr hc, hk⟩
  | set p =>
    intro k s
    show (oneChar p k s).isSome = true ↔ _
    rw [oneChar_iff]
    constructor
    · rintro ⟨d, rest, h, hc, hk⟩
      exact ⟨_, ⟨d, rest, h, hc, rfl⟩, hk⟩
    · rintro ⟨_, ⟨d, rest, h, hc, rfl⟩, hk⟩
      exact ⟨d, rest, h, hc, hk⟩
  | assert p =>
    intro k s
    show (if p s then k s else none).isSome = true ↔ _
    constructor
    · intro h
      by_cases hb : p s = true
      · rw [if_pos hb] at h
        exact ⟨s, ⟨hb, rfl⟩, h⟩
      · rw [if_neg hb] at h
        exact absurd h Bool.false_ne_true
    · rintro ⟨_, ⟨hb, rfl⟩, hk⟩
      rw [if_pos hb]
      exact hk
  | cat a b iha ihb =>
    intro k s
    show (search a (search b k) s).isSome = true ↔ _
    rw [iha]
    constructor
    · rintro ⟨s₁, h1, h2⟩
      obtain ⟨s', h2, hk⟩ := (ihb k s₁).mp h2
      exact ⟨s', ⟨s₁, h1, h2⟩, hk⟩
    · rintro ⟨s', ⟨s₁, h1, h2⟩, hk⟩
      exact ⟨s₁, h1, (ihb k s₁).mpr ⟨s', h2, hk⟩⟩
  | alt a b iha ihb =>
    intro k s
    show ((search a k s).or (search b k s)).isSome = true ↔ _
    rw [Option.isSome_or, Bool.or_eq_true, iha, ihb]
    constructor
    · rintro (⟨s', h, hk⟩ | ⟨s', h, hk⟩)
      · exact ⟨s', Or.inl h, hk⟩
      · exact ⟨s', Or.inr h, hk⟩
    · rintro ⟨s', h | h, hk⟩
      · exact Or.inl ⟨s', h, hk⟩
      · exact Or.inr ⟨s', h, hk⟩
  | rep r min more greedy ih =>
    intro k s
    show (times (search r) min
      (fun s => atMost (search r) greedy (more.getD s.rest.length) k s) s).isSome = true ↔ _
    rw [ih.times min]
    constructor
    · rintro ⟨s₁, h1, h2⟩
      obtain ⟨s', ⟨j, hj, h2⟩, hk⟩ := (ih.atMost greedy _ k s₁).mp h2
      refine ⟨s', ⟨min + j, Nat.le_add_right _ _, fun m hm => ?_, h1.append h2⟩, hk⟩
      subst hm
      exact Nat.add_le_add_left hj min
    · rintro ⟨s', ⟨n, hmin, hmax, h⟩, hk⟩
      obtain ⟨j, rfl⟩ := Nat.exists_eq_add_of_le hmin
      obtain ⟨s₁, h1, h2⟩ := h.split
      refine ⟨s₁, h1, (ih.atMost greedy _ k s₁).mpr ⟨s', ?_, hk⟩⟩
      cases more with
      | none => exact (matches_consumes r).shorten h2
      | some m => exact ⟨j, Nat.le_of_add_le_add_left (hmax m rfl), h2⟩

end Correct

theorem testFrom_iff (r : Regex) (prev : Option Char) (text : List Char) :
    testFrom r prev text = true ↔
      ∃ pre post s', text = pre ++ post ∧ Matches r ⟨pre.getLast?.or prev, post⟩ s' := by
  induction text generalizing prev with
  | nil =>
    show (search r _ _).isSome = true ↔ _
    rw [search_iff]
    constructor
    · rintro ⟨s', h, _⟩
      exact ⟨[], [], s', rfl, h⟩
    · rintro ⟨pre, post, s', e, h⟩
      obtain ⟨rfl, rfl⟩ := List.append_eq_nil_iff.mp e.symm
      exact ⟨s', h, rfl⟩
  | cons c rest ih =>
    show ((search r _ _).isSome || testFrom r (some c) rest) = true ↔ _
    rw [Bool.or_eq_true, search_iff, ih]
    constructor
    · rintro (⟨s', h, _⟩ | ⟨pre, post, s', rfl, h⟩)
      · exact ⟨[], c :: rest, s', rfl, h⟩
      · refine ⟨c :: pre, post, s', rfl, ?_⟩
        rw [List.getLast?_cons]
        cases hp : pre.getLast? with
        | none => rwa [hp] at h
        | some d => rwa [hp] at h
    · rintro ⟨pre, post, s', e, h⟩
      cases pre with
      | nil =>
        rw [List.nil_append] at e
        subst e
        exact Or.inl ⟨s', h, rfl⟩
      | cons d pre =>
        obtain ⟨rfl, rfl⟩ := List.cons.inj e
        refine Or.inr ⟨pre, post, s', rfl, ?_⟩
        rw [List.getLast?_cons] at h
        cases hp : pre.getLast? with
        | none => rwa [hp] at h
        | some d => rwa [hp] at h

/-- **`test` succeeds exactly if the pattern matches somewhere.** -/
theorem test_iff (r : Regex) (text : List Char) :
    test r text = true ↔
      ∃ pre post s', text = pre ++ post ∧ Matches r ⟨pre.getLast?, post⟩ s' := by
  unfold test
  rw [testFrom_iff]
  simp only [Option.or_none]

/-! ## 5. Literals -/

/-- The folded code points of a text. -/
def folded (text : List Char) : List Nat := text.map fun c => canonicalize c.toNat

theorem matches_literal (w : List Char) {u : List Char} (h : folded u = folded w)
    (before : Option Char) (post : List Char) :
    ∃ last, Matches (w.foldr (fun c r => .cat (.char c) r) .empty) ⟨before, u ++ post⟩
      ⟨last, post⟩ := by
  induction w generalizing u before with
  | nil =>
    obtain rfl := List.map_eq_nil_iff.mp h
    exact ⟨before, rfl⟩
  | cons c w ih =>
    obtain ⟨d, u, rfl, hd, hu⟩ := List.map_eq_cons_iff.mp h
    obtain ⟨last, hm⟩ := ih hu (some d)
    exact ⟨last, ⟨some d, u ++ post⟩, ⟨d, u ++ post, rfl, hd, rfl⟩, hm⟩

/-- A literal matches every text that folds to it. -/
theorem matches_lit (w : String) {u : List Char} (h : folded u = folded w.toList)
    (before : Option Char) (post : List Char) :
    ∃ last, Matches (lit w) ⟨before, u ++ post⟩ ⟨last, post⟩ :=
  matches_literal w.toList h before post

/-- A text passes the test if a part that folds to `w` is always a match. -/
theorem test_of_infix {r : Regex} {w : List Nat}
    (h : ∀ u before post, folded u = w → ∃ s', Matches r ⟨before, u ++ post⟩ s') {text : List Char}
    (ht : w <:+: folded text) : test r text = true := by
  obtain ⟨a, b, hab⟩ := ht
  rw [List.append_assoc] at hab
  obtain ⟨pre, rest, rfl, _, hrest⟩ := List.map_eq_append_iff.mp hab.symm
  obtain ⟨u, post, rfl, hu, _⟩ := List.map_eq_append_iff.mp hrest
  obtain ⟨s', hm⟩ := h u pre.getLast? post hu
  exact (test_iff r _).mpr ⟨pre, u ++ post, s', rfl, hm⟩

end JsRegex
