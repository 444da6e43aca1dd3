/-
  File:      OpenVac/Agent/UrlTrimming.lean
  Subject:   What `trimTrailingUrlPunctuation` leaves of an address, and of one that closing
             punctuation follows.

  * `trimClosing_spec`, `trimClosing_append` -- one kind of bracket.
  * `Clean`, `Trailing` -- an address that nothing is left to be trimmed of, and the runs after it
    that one pass takes away.
  * `trim_append_trailing`, `exists_trailing` -- the pass takes such a run and no other.
  * `collectFrom_congr` -- what follows the addresses of a text does not matter, if it is such a run.
  * `url_trimming_iff` -- where the result is clean and the same for every run.
-/
import OpenVac.Agent.TextUrls

namespace OpenVac.Agent.TextUrls

open JsString JsRegex JsUrl

/-! ## 1. One kind of bracket -/

section Bracket

variable {opening closing : CodePoint}

/-- The brackets at the end have their partners. -/
def Closed (opening closing : CodePoint) (s : Points) : Prop :=
  s.getLast? = some closing → List.count closing s ≤ List.count opening s

/-- No partner of a bracket is open. -/
def NoneOpen (opening closing : CodePoint) (s : Points) : Prop :=
  List.count opening s ≤ List.count closing s

theorem dropClosing_spec (hne : opening ≠ closing) (s : Points) :
    ∃ k, s = List.replicate k closing ++ dropClosing opening closing s ∧
      (0 < k → List.count opening (dropClosing opening closing s) ≤
        List.count closing (dropClosing opening closing s)) ∧
      ((dropClosing opening closing s).head? = some closing →
        List.count closing (dropClosing opening closing s) ≤
          List.count opening (dropClosing opening closing s)) := by
  induction s with
  | nil => exact ⟨0, rfl, fun h => absurd h (Nat.lt_irrefl 0), fun h => nomatch h⟩
  | cons c rest ih =>
    unfold dropClosing
    split_ifs with hdrop
    · obtain ⟨rfl, hmore⟩ := hdrop
      obtain ⟨k, hrest, hopen, hclosed⟩ := ih
      refine ⟨k + 1, ?_, fun _ => ?_, hclosed⟩
      · rw [List.replicate_succ, List.cons_append, ← hrest]
      · rcases Nat.eq_zero_or_pos k with rfl | hpos
        · -- the first bracket was one too many
          rw [List.replicate_zero, List.nil_append] at hrest
          rw [List.count_cons_self, List.count_cons_of_ne (Ne.symm hne)] at hmore
          rw [← hrest]
          omega
        · exact hopen hpos
    · refine ⟨0, rfl, fun h => absurd h (Nat.lt_irrefl 0), fun hhead => ?_⟩
      have hc : c = closing := Option.some.inj hhead
      exact not_lt.mp fun hmore => hdrop ⟨hc, hmore⟩

/-- What is dropped of a text that ends in more brackets than it should. -/
theorem dropClosing_replicate (hne : opening ≠ closing) {s : Points}
    (hclosed : s.head? = some closing → List.count closing s ≤ List.count opening s) {k : Nat}
    (hopen : 0 < k → List.count opening s ≤ List.count closing s) :
    dropClosing opening closing (List.replicate k closing ++ s) = s := by
  induction k with
  | zero =>
    cases s with
    | nil => rfl
    | cons c rest =>
      show dropClosing opening closing (c :: rest) = c :: rest
      unfold dropClosing
      refine if_neg fun hdrop => ?_
      have hle := hclosed (congrArg some hdrop.1)
      omega
  | succ k ih =>
    have hle := hopen (Nat.succ_pos k)
    rw [List.replicate_succ, List.cons_append, dropClosing, if_pos]
    · exact ih fun _ => hle
    · refine ⟨rfl, ?_⟩
      rw [List.count_cons_self, List.count_cons_of_ne (Ne.symm hne), List.count_append,
        List.count_append, List.count_replicate_self,
        List.count_eq_zero_of_not_mem fun hmem => hne (List.eq_of_mem_replicate hmem)]
      omega

/-- **One kind of bracket is trimmed**: a run of it goes, none of which was open, and what is left
    is closed. -/
theorem trimClosing_spec (hne : opening ≠ closing) (s : Points) :
    ∃ k, s = trimClosing opening closing s ++ List.replicate k closing ∧
      (0 < k → NoneOpen opening closing (trimClosing opening closing s)) ∧
      Closed opening closing (trimClosing opening closing s) := by
  obtain ⟨k, hsplit, hopen, hclosed⟩ := dropClosing_spec hne s.reverse
  refine ⟨k, ?_, ?_, ?_⟩
  · have hback := congrArg List.reverse hsplit
    rw [List.reverse_reverse, List.reverse_append, List.reverse_replicate] at hback
    exact hback
  · intro hpos
    unfold NoneOpen trimClosing
    rw [List.count_reverse, List.count_reverse]
    exact hopen hpos
  · intro hlast
    unfold trimClosing at hlast ⊢
    rw [List.getLast?_reverse] at hlast
    rw [List.count_reverse, List.count_reverse]
    exact hclosed hlast

theorem trimClosing_append (hne : opening ≠ closing) {s : Points} (hclosed : Closed opening closing s)
    {k : Nat} (hopen : 0 < k → NoneOpen opening closing s) :
    trimClosing opening closing (s ++ List.replicate k closing) = s := by
  unfold trimClosing
  rw [List.reverse_append, List.reverse_replicate, dropClosing_replicate hne, List.reverse_reverse]
  · intro hhead
    rw [List.head?_reverse] at hhead
    rw [List.count_reverse, List.count_reverse]
    exact hclosed hhead
  · intro hpos
    rw [List.count_reverse, List.count_reverse]
    exact hopen hpos

/-- A run of another character leaves a bracket's partners as they are. -/
theorem noneOpen_append_replicate {s : Points} {c : CodePoint} {k : Nat} (hopening : c ≠ opening)
    (hclosing : c ≠ closing) :
    NoneOpen opening closing (s ++ List.replicate k c) ↔ NoneOpen opening closing s := by
  unfold NoneOpen
  rw [List.count_append, List.count_append,
    List.count_eq_zero_of_not_mem fun hmem => hopening (List.eq_of_mem_replicate hmem).symm,
    List.count_eq_zero_of_not_mem fun hmem => hclosing (List.eq_of_mem_replicate hmem).symm]
  rfl

theorem closed_append_replicate {s : Points} {c : CodePoint} {k : Nat} (hclosing : c ≠ closing)
    (h : Closed opening closing s) :
    Closed opening closing (s ++ List.replicate k c) := by
  rcases Nat.eq_zero_or_pos k with rfl | hpos
  · rw [List.replicate_zero, List.append_nil]
    exact h
  · intro hlast
    obtain ⟨j, rfl⟩ := Nat.exists_eq_add_of_le' hpos
    rw [List.replicate_succ', ← List.append_assoc, List.getLast?_concat] at hlast
    exact absurd (Option.some.inj hlast) hclosing

end Bracket

/-! ## 2. Addresses and what follows them -/

/-- An address ends neither in sentence punctuation nor in an unbalanced closing bracket. -/
structure Clean (address : Points) : Prop where
  punctuation : ∀ c ∈ address.getLast?, isSentencePunctuation c = false
  round : Closed '(' ')' address
  square : Closed '[' ']' address
  curly : Closed '\x7b' '\x7d' address

/-- The runs after an address that one pass takes away: curly brackets, square ones, round ones and
    sentence punctuation, in this order, and no bracket whose partner is open in the address. -/
def Trailing (address run : Points) : Prop :=
  ∃ (curly square round : Nat) (punctuation : Points),
    run = List.replicate curly (CodePoint.scalar '\x7d') ++
      (List.replicate square (CodePoint.scalar ']') ++
        (List.replicate round (CodePoint.scalar ')') ++ punctuation)) ∧
      (∀ c ∈ punctuation, isSentencePunctuation c = true) ∧
      (0 < curly → NoneOpen '\x7b' '\x7d' address) ∧ (0 < square → NoneOpen '[' ']' address) ∧
      (0 < round → NoneOpen '(' ')' address)

/-- A run of punctuation at the end goes. -/
theorem rdropWhile_append {s punctuation : Points}
    (hs : ∀ c ∈ s.getLast?, isSentencePunctuation c = false)
    (hpunctuation : ∀ c ∈ punctuation, isSentencePunctuation c = true) :
    (s ++ punctuation).rdropWhile isSentencePunctuation = s := by
  unfold List.rdropWhile
  rw [List.reverse_append, List.dropWhile_append_of_pos fun c hc =>
    hpunctuation c (List.mem_reverse.mp hc)]
  have hstart : s.reverse.dropWhile isSentencePunctuation = s.reverse := by
    cases hcase : s.reverse with
    | nil => rfl
    | cons c rest =>
      have hlast : s.getLast? = some c := by
        rw [← List.head?_reverse, hcase]
        rfl
      rw [List.dropWhile_cons, hs c hlast]
      rfl
  rw [hstart, List.reverse_reverse]

/-- Every pass takes such a run. -/
theorem exists_trailing (value : Points) :
    ∃ run, value = trimTrailingUrlPunctuation value ++ run ∧
      Trailing (trimTrailingUrlPunctuation value) run := by
  obtain ⟨round, hround, hroundOpen, -⟩ :=
    trimClosing_spec (show (CodePoint.scalar '(') ≠ .scalar ')' by decide)
      (value.rdropWhile isSentencePunctuation)
  obtain ⟨square, hsquare, hsquareOpen, -⟩ :=
    trimClosing_spec (show (CodePoint.scalar '[') ≠ .scalar ']' by decide)
      (trimClosing '(' ')' (value.rdropWhile isSentencePunctuation))
  obtain ⟨curly, hcurly, hcurlyOpen, -⟩ :=
    trimClosing_spec (show (CodePoint.scalar '\x7b') ≠ .scalar '\x7d' by decide)
      (trimClosing '[' ']' (trimClosing '(' ')' (value.rdropWhile isSentencePunctuation)))
  have hvalue : value = value.rdropWhile isSentencePunctuation ++
      value.rtakeWhile isSentencePunctuation := List.rdropWhile_append_rtakeWhile.symm
  refine ⟨_, ?_, curly, square, round, value.rtakeWhile isSentencePunctuation, rfl,
    fun c hc => List.mem_rtakeWhile_imp hc, hcurlyOpen, fun hpos => ?_, fun hpos => ?_⟩
  · calc value
        = value.rdropWhile isSentencePunctuation ++ value.rtakeWhile isSentencePunctuation := hvalue
      _ = _ := by
          rw [← List.append_assoc, ← List.append_assoc, ← List.append_assoc]
          exact congrArg (· ++ value.rtakeWhile isSentencePunctuation) (hround.trans
            (congrArg (· ++ List.replicate round _) (hsquare.trans
              (congrArg (· ++ List.replicate square _) hcurly))))
  · have h := hsquareOpen hpos
    rw [hcurly] at h
    exact (noneOpen_append_replicate (by decide) (by decide)).mp h
  · have h := hroundOpen hpos
    rw [hsquare] at h
    have h' := (noneOpen_append_replicate (by decide) (by decide)).mp h
    rw [hcurly] at h'
    exact (noneOpen_append_replicate (by decide) (by decide)).mp h'

/-- **What follows a clean address in this order goes**, all of it. -/
theorem trim_append_trailing {address run : Points} (haddress : Clean address)
    (hrun : Trailing address run) : trimTrailingUrlPunctuation (address ++ run) = address := by
  obtain ⟨curly, square, round, punctuation, rfl, hpunctuation, hcurly, hsquare, hround⟩ := hrun
  have hlast : ∀ c ∈ (address ++ List.replicate curly (CodePoint.scalar '\x7d') ++
      List.replicate square (CodePoint.scalar ']') ++
        List.replicate round (CodePoint.scalar ')')).getLast?,
      isSentencePunctuation c = false := by
    have hstep {s : Points} {closing : CodePoint} {k : Nat}
        (hclosing : isSentencePunctuation closing = false)
        (hs : ∀ c ∈ s.getLast?, isSentencePunctuation c = false) :
        ∀ c ∈ (s ++ List.replicate k closing).getLast?, isSentencePunctuation c = false := by
      intro c hc
      rcases Nat.eq_zero_or_pos k with rfl | hpos
      · rw [List.replicate_zero, List.append_nil] at hc
        exact hs c hc
      · obtain ⟨j, rfl⟩ := Nat.exists_eq_add_of_le' hpos
        rw [List.replicate_succ', ← List.append_assoc, List.getLast?_concat] at hc
        rw [← Option.some.inj hc]
        exact hclosing
    exact hstep (by decide) (hstep (by decide) (hstep (by decide) haddress.punctuation))
  have hassoc : address ++ (List.replicate curly (CodePoint.scalar '\x7d') ++
      (List.replicate square (CodePoint.scalar ']') ++
        (List.replicate round (CodePoint.scalar ')') ++ punctuation))) =
      address ++ List.replicate curly (CodePoint.scalar '\x7d') ++
        List.replicate square (CodePoint.scalar ']') ++
          List.replicate round (CodePoint.scalar ')') ++ punctuation := by
    simp only [List.append_assoc]
  unfold trimTrailingUrlPunctuation
  rw [hassoc, rdropWhile_append hlast hpunctuation]
  dsimp only
  rw [trimClosing_append (by decide), trimClosing_append (by decide), trimClosing_append (by decide)]
  · exact haddress.curly
  · exact hcurly
  · exact closed_append_replicate (by decide) haddress.square
  · exact fun hpos => (noneOpen_append_replicate (by decide) (by decide)).mpr (hsquare hpos)
  · exact closed_append_replicate (by decide)
      (closed_append_replicate (by decide) haddress.round)
  · exact fun hpos => (noneOpen_append_replicate (by decide) (by decide)).mpr
      ((noneOpen_append_replicate (by decide) (by decide)).mpr (hround hpos))

/-- A clean address is left alone, and only a clean one is. -/
theorem trim_eq_self_iff {value : Points} : trimTrailingUrlPunctuation value = value ↔ Clean value := by
  constructor
  · intro h
    -- each pass has left the text alone
    obtain ⟨round, hround, -, hroundClosed⟩ :=
      trimClosing_spec (show (CodePoint.scalar '(') ≠ .scalar ')' by decide)
        (value.rdropWhile isSentencePunctuation)
    obtain ⟨square, hsquare, -, hsquareClosed⟩ :=
      trimClosing_spec (show (CodePoint.scalar '[') ≠ .scalar ']' by decide)
        (trimClosing '(' ')' (value.rdropWhile isSentencePunctuation))
    obtain ⟨curly, hcurly, -, hcurlyClosed⟩ :=
      trimClosing_spec (show (CodePoint.scalar '\x7b') ≠ .scalar '\x7d' by decide)
        (trimClosing '[' ']' (trimClosing '(' ')' (value.rdropWhile isSentencePunctuation)))
    have hwhole : trimClosing '\x7b' '\x7d' (trimClosing '[' ']'
      (trimClosing '(' ')' (value.rdropWhile isSentencePunctuation))) = value := h
    have hprefix : value.rdropWhile isSentencePunctuation <+: value := List.rdropWhile_prefix _ _
    rw [hwhole] at hcurly hcurlyClosed
    have hsquareWhole : trimClosing '[' ']'
        (trimClosing '(' ')' (value.rdropWhile isSentencePunctuation)) = value := by
      refine List.IsPrefix.eq_of_length_le ?_ ?_
      · refine List.IsPrefix.trans ⟨_, hsquare.symm⟩ (List.IsPrefix.trans ⟨_, hround.symm⟩ hprefix)
      · rw [hcurly, List.length_append]
        exact Nat.le_add_right _ _
    rw [hsquareWhole] at hsquare hsquareClosed
    have hroundWhole : trimClosing '(' ')' (value.rdropWhile isSentencePunctuation) = value := by
      refine List.IsPrefix.eq_of_length_le ?_ ?_
      · exact List.IsPrefix.trans ⟨_, hround.symm⟩ hprefix
      · rw [hsquare, List.length_append]
        exact Nat.le_add_right _ _
    rw [hroundWhole] at hround hroundClosed
    have hpunctuationWhole : value.rdropWhile isSentencePunctuation = value := by
      refine List.IsPrefix.eq_of_length_le hprefix ?_
      rw [hround, List.length_append]
      exact Nat.le_add_right _ _
    refine ⟨fun c hc => ?_, hroundClosed, hsquareClosed, hcurlyClosed⟩
    have hne : value ≠ [] := by
      rintro rfl
      nomatch hc
    have hlast := List.rdropWhile_eq_self_iff.mp hpunctuationWhole hne
    rw [List.getLast?_eq_getLast_of_ne_nil hne] at hc
    rw [← Option.some.inj hc]
    exact Bool.eq_false_iff.mpr hlast
  · intro h
    have hnone := trim_append_trailing h
      ⟨0, 0, 0, [], rfl, (fun _ hc => nomatch hc), (fun hpos => absurd hpos (Nat.lt_irrefl 0)),
        (fun hpos => absurd hpos (Nat.lt_irrefl 0)), fun hpos => absurd hpos (Nat.lt_irrefl 0)⟩
    simpa only [List.replicate_zero, List.nil_append, List.append_nil] using hnone

/-! ## 3. Prose -/

/-- A clean address and a run after it that one pass takes away. -/
def Orderly (value : Points) : Prop :=
  ∃ address run, value = address ++ run ∧ Clean address ∧ Trailing address run

/-- Two matches of one address, both before the limit or both after it. -/
def SameAddress (found other : TextMatch) : Prop :=
  (MAX_TEXT_DISCOVERY_CHARACTERS ≤ found.index ↔ MAX_TEXT_DISCOVERY_CHARACTERS ≤ other.index) ∧
    ∃ address run otherRun, found.text = address ++ run ∧ other.text = address ++ otherRun ∧
      Clean address ∧ Trailing address run ∧ Trailing address otherRun

section Host

variable [UrlParser]

theorem parseTextCandidateUrl_congr {value other : Points}
    (h : trimTrailingUrlPunctuation value = trimTrailingUrlPunctuation other) :
    parseTextCandidateUrl value = parseTextCandidateUrl other := by
  unfold parseTextCandidateUrl
  rw [h]

theorem SameAddress.parse {found other : TextMatch} (h : SameAddress found other) :
    parseTextCandidateUrl found.text = parseTextCandidateUrl other.text := by
  obtain ⟨-, address, run, otherRun, hfound, hother, haddress, hrun, hotherRun⟩ := h
  apply parseTextCandidateUrl_congr
  rw [hfound, hother, trim_append_trailing haddress hrun,
    trim_append_trailing haddress hotherRun]

/-- **The candidates do not depend on what follows the addresses.** -/
theorem collectFrom_congr {found other : List TextMatch} (h : List.Forall₂ SameAddress found other)
    (inspected : Nat) (candidates : List WebCandidate) :
    collectFrom inspected candidates found = collectFrom inspected candidates other := by
  induction h generalizing inspected candidates with
  | nil => rfl
  | cons hfirst _ ih =>
    have hparse := hfirst.parse
    simp only [collectFrom, hfirst.1, hparse, ih]

/-- **Where trimming reaches its fixed point**: on a clean address that a run in the order of the
    pass follows, and nowhere else; there a run does not change the address, nor do runs in a text
    change its candidates. -/
theorem url_trimming_iff :
    (∀ value : Points,
      (Clean (trimTrailingUrlPunctuation value) ∧
        trimTrailingUrlPunctuation (trimTrailingUrlPunctuation value) =
          trimTrailingUrlPunctuation value) ↔ Orderly value) ∧
      (∀ address run : Points, Clean address →
        (trimTrailingUrlPunctuation (address ++ run) = address ↔ Trailing address run)) ∧
      ∀ text other : Points,
        List.Forall₂ SameAddress
          (matchAll urlPattern
            (clipPoints (MAX_TEXT_DISCOVERY_CHARACTERS + MAX_DISCOVERY_URL_CHARACTERS + 1) text))
          (matchAll urlPattern
            (clipPoints (MAX_TEXT_DISCOVERY_CHARACTERS + MAX_DISCOVERY_URL_CHARACTERS + 1) other)) →
          extractTextUrlCandidates text = extractTextUrlCandidates other := by
  refine ⟨fun value => ⟨?_, ?_⟩, fun address run haddress => ⟨fun h => ?_, ?_⟩, ?_⟩
  · rintro ⟨hclean, -⟩
    obtain ⟨run, hvalue, hrun⟩ := exists_trailing value
    exact ⟨_, run, hvalue, hclean, hrun⟩
  · rintro ⟨address, run, rfl, haddress, hrun⟩
    rw [trim_append_trailing haddress hrun]
    exact ⟨haddress, trim_eq_self_iff.mpr haddress⟩
  · obtain ⟨taken, hwhole, htaken⟩ := exists_trailing (address ++ run)
    rw [h] at hwhole htaken
    rw [List.append_cancel_left hwhole]
    exact htaken
  · exact trim_append_trailing haddress
  · intro text other h
    unfold extractTextUrlCandidates
    exact collectFrom_congr h 0 []

end Host

/-- Punctuation before a bracket is left at the end: `https://example.com/a.)`. -/
theorem punctuation_left_before_bracket :
    ¬ ∀ value : Points, Clean (trimTrailingUrlPunctuation value) ∧
      trimTrailingUrlPunctuation (trimTrailingUrlPunctuation value) =
        trimTrailingUrlPunctuation value := by
  intro h
  have hend : (trimTrailingUrlPunctuation
      ("https://example.com/a.)".toList.map CodePoint.scalar)).getLast? =
        some (CodePoint.scalar '.') := by decide
  have hclean := (h ("https://example.com/a.)".toList.map CodePoint.scalar)).1.punctuation
    (CodePoint.scalar '.') hend
  exact absurd hclean (by decide)

end OpenVac.Agent.TextUrls
