/-
  File:      OpenVac/Lib/Xml.lean
  Subject:   A reader of XML 1.0 documents without a document type.

  * `isXmlChar`, `normalizeLines` -- the characters XML allows, and the line ends it makes LF.
  * `lexFrom` -- markup and characters; `build` -- the tree of elements.
  * `readXml` -- the root element of a document, where it is well-formed.
  * `Parses` -- a text that is read as those items wherever it stands; `parses_append`,
    `parses_element`, `parses_textElement`.
-/
import OpenVac.Lib.CodePoints

namespace Xml

open CodePoints
open JsString (Text)

/-! ## 1. Characters -/

/-- `Char`: what an XML document may hold. -/
def isXmlChar (c : Char) : Bool :=
  c.toNat == 0x9 || c.toNat == 0xA || c.toNat == 0xD ||
    (decide (0x20 ≤ c.toNat) && decide (c.toNat ≤ 0xD7FF)) ||
    (decide (0xE000 ≤ c.toNat) && decide (c.toNat ≤ 0xFFFD)) ||
    decide (0x10000 ≤ c.toNat)

/-- `S`. -/
def isSpace (c : Char) : Bool := c == ' ' || c == '\t' || c == '\r' || c == '\n'

/-- The characters of names here, those of the basic alphabet. -/
def isNameStart (c : Char) : Bool :=
  decide ('a' ≤ c ∧ c ≤ 'z') || decide ('A' ≤ c ∧ c ≤ 'Z') || c == '_' || c == ':'

def isNameChar (c : Char) : Bool :=
  isNameStart c || decide ('0' ≤ c ∧ c ≤ '9') || c == '-' || c == '.'

def isName (s : Text) : Bool := (s.head?.any isNameStart) && s.all isNameChar

/-- The text as the processor passes it on: CR LF and CR are LF. -/
def normalizeLines : Text → Text
  | [] => []
  | '\r' :: '\n' :: rest => '\n' :: normalizeLines rest
  | '\r' :: rest => '\n' :: normalizeLines rest
  | c :: rest => c :: normalizeLines rest

/-! ## 2. Markup -/

abbrev Attributes := List (Text × Text)

inductive Token where
  | character (c : Char)
  | startTag (name : Text) (attributes : Attributes)
  | endTag (name : Text)
  | emptyTag (name : Text) (attributes : Attributes)
  /-- `<?xml ... ?>`. -/
  | declaration
  deriving DecidableEq

/-- Where the reader of attributes stands; what is read of a value has the last character first. -/
inductive AttributePlace where
  | gap (spaceSeen : Bool)
  | name (read : Text)
  | beforeValue (name : Text)
  | value (name : Text) (quote : Char) (read : Text)

/-- Attributes: each after white space, its value in quotes and without references. -/
def attributesFrom : AttributePlace → Text → Option Attributes
  | .gap _, [] => some []
  | .name _, [] => none
  | .beforeValue _, [] => none
  | .value _ _ _, [] => none
  | .gap spaceSeen, c :: rest =>
      if isSpace c then attributesFrom (.gap true) rest
      else if spaceSeen && isNameStart c then attributesFrom (.name [c]) rest
      else none
  | .name read, c :: rest =>
      if c = '=' then attributesFrom (.beforeValue read) rest
      else if isNameChar c then attributesFrom (.name (read ++ [c])) rest
      else none
  | .beforeValue name, c :: rest =>
      if c = '"' ∨ c = '\'' then attributesFrom (.value name c []) rest else none
  | .value name quote read, c :: rest =>
      if c = quote then (attributesFrom (.gap false) rest).map ((name, read.reverse) :: ·)
      else if c = '&' ∨ c = '<' then none
      else attributesFrom (.value name quote (c :: read)) rest

/-- The attributes of a tag, no two of one name. -/
def readAttributes (s : Text) : Option Attributes :=
  match attributesFrom (.gap false) s with
  | some attributes => if (attributes.map Prod.fst).Nodup then some attributes else none
  | none => none

/-- A name and the attributes after it. -/
def readNamed (make : Text → Attributes → Token) (s : Text) : Option Token :=
  let name := s.takeWhile isNameChar
  if isName name then (readAttributes (s.dropWhile isNameChar)).map (make name) else none

/-- What stands between `<` and `>`. -/
def readTag : Text → Option Token
  | '/' :: rest =>
      let name := rest.rdropWhile isSpace
      if isName name then some (.endTag name) else none
  | '?' :: 'x' :: 'm' :: 'l' :: rest =>
      if rest.getLast? = some '?' then
        (readAttributes rest.dropLast).map fun _ => .declaration
      else none
  | s =>
      if s.getLast? = some '/' then readNamed .emptyTag s.dropLast else readNamed .startTag s

/-- The predefined entities. -/
def entityChar (name : Text) : Option Char :=
  if name = ['a', 'm', 'p'] then some '&'
  else if name = ['l', 't'] then some '<'
  else if name = ['g', 't'] then some '>'
  else if name = ['q', 'u', 'o', 't'] then some '"'
  else if name = ['a', 'p', 'o', 's'] then some '\''
  else none

/-- Where the reader of a document stands. -/
inductive Place where
  | content
  /-- Within a tag, perhaps in a value that ends at a quote; the last character is first. -/
  | markup (quote : Option Char) (read : Text)
  | reference (read : Text)

/-- The tokens of a text; a `>` of content is written as a reference. -/
def lexFrom : Place → Text → Option (List Token)
  | .content, [] => some []
  | .markup _ _, [] => none
  | .reference _, [] => none
  | .content, c :: rest =>
      if c = '<' then lexFrom (.markup none []) rest
      else if c = '&' then lexFrom (.reference []) rest
      else if c = '>' then none
      else (lexFrom .content rest).map (.character c :: ·)
  | .markup none read, c :: rest =>
      if c = '>' then
        match readTag read.reverse with
        | some token => (lexFrom .content rest).map (token :: ·)
        | none => none
      else if c = '<' then none
      else if c = '"' ∨ c = '\'' then lexFrom (.markup (some c) (c :: read)) rest
      else lexFrom (.markup none (c :: read)) rest
  | .markup (some quote) read, c :: rest =>
      if c = '<' then none
      else if c = quote then lexFrom (.markup none (c :: read)) rest
      else lexFrom (.markup (some quote) (c :: read)) rest
  | .reference read, c :: rest =>
      if c = ';' then
        match entityChar read with
        | some d => (lexFrom .content rest).map (.character d :: ·)
        | none => none
      else lexFrom (.reference (read ++ [c])) rest

/-! ## 3. Elements -/

/-- An information item: an element, or one character of its content. -/
inductive Item where
  | element (name : Text) (attributes : Attributes) (children : List Item)
  | character (c : Char)

/-- An element that is not closed yet, with the items before it. -/
structure Open where
  name : Text
  attributes : Attributes
  before : List Item

/-- The items of a token list, those of the innermost open element first. -/
def build : List Item → List Open → List Token → Option (List Item)
  | items, [], [] => some items
  | _, _ :: _, [] => none
  | items, stack, .character c :: rest => build (items ++ [.character c]) stack rest
  | items, stack, .startTag name attributes :: rest => build [] (⟨name, attributes, items⟩ :: stack) rest
  | items, stack, .emptyTag name attributes :: rest =>
      build (items ++ [.element name attributes []]) stack rest
  | items, ⟨name, attributes, before⟩ :: stack, .endTag closing :: rest =>
      if closing = name then build (before ++ [.element name attributes items]) stack rest else none
  | _, [], .endTag _ :: _ => none
  | _, _, .declaration :: _ => none

/-- White space, which may stand around the root element. -/
def Item.isBlank : Item → Bool
  | .element _ _ _ => false
  | .character c => isSpace c

/-- The root: the only item that is not white space, and an element. -/
def rootOf (items : List Item) : Option Item :=
  match items.filter fun item => !item.isBlank with
  | [.element name attributes children] => some (.element name attributes children)
  | _ => none

/-- The root element of a document with an XML declaration. -/
def readTokens : List Token → Option Item
  | .declaration :: rest => (build [] [] rest).bind rootOf
  | _ => none

/-- The root element of a well-formed document. -/
def readXml (s : Text) : Option Item :=
  if s.all isXmlChar then (lexFrom .content (normalizeLines s)).bind readTokens else none

/-! ## 4. Characters as they are written -/

/-- What the UTF-8 encoder makes of a code point. -/
def written : CodePoint → Char
  | .scalar c => c
  | .surrogate _ => '\uFFFD'

/-- The characters of the file that a string is written to. -/
def writtenText (s : Points) : Text := s.map written

/-- `escapeXml(value)`. -/
def escapePoint (c : CodePoint) : Points :=
  if c = .scalar '&' then [.scalar '&', .scalar 'a', .scalar 'm', .scalar 'p', .scalar ';']
  else if c = .scalar '<' then [.scalar '&', .scalar 'l', .scalar 't', .scalar ';']
  else if c = .scalar '>' then [.scalar '&', .scalar 'g', .scalar 't', .scalar ';']
  else if c = .scalar '"' then
    [.scalar '&', .scalar 'q', .scalar 'u', .scalar 'o', .scalar 't', .scalar ';']
  else if c = .scalar '\'' then
    [.scalar '&', .scalar 'a', .scalar 'p', .scalar 'o', .scalar 's', .scalar ';']
  else [c]

theorem writtenText_append (s t : Points) :
    writtenText (s ++ t) = writtenText s ++ writtenText t := List.map_append

theorem normalizeLines_cons {c : Char} (hcr : c ≠ '\r') (rest : Text) :
    normalizeLines (c :: rest) = c :: normalizeLines rest := by
  rw [normalizeLines]
  · intro _ h
    exact absurd h hcr
  · exact hcr

theorem normalizeLines_append {s : Text} (h : '\r' ∉ s) (rest : Text) :
    normalizeLines (s ++ rest) = s ++ normalizeLines rest := by
  induction s with
  | nil => rfl
  | cons c s ih =>
    have hcr : c ≠ '\r' := fun hc => h (by simp [hc])
    rw [List.cons_append, normalizeLines_cons hcr, ih fun hc => h (List.mem_cons_of_mem _ hc)]
    rfl

/-- The tokens of a text that ends in content, before those of the rest. -/
theorem lexFrom_append {place : Place} {s : Text} {tokens : List Token}
    (h : lexFrom place s = some tokens) (rest : Text) :
    lexFrom place (s ++ rest) = (lexFrom .content rest).map (tokens ++ ·) := by
  have hcons (token : Token) {s : Text} {found : List Token}
      (hfound : (lexFrom .content s).map (token :: ·) = some found)
      (ih : ∀ tokens, lexFrom .content s = some tokens →
        lexFrom .content (s ++ rest) = (lexFrom .content rest).map (tokens ++ ·)) :
      (lexFrom .content (s ++ rest)).map (token :: ·) =
        (lexFrom .content rest).map (found ++ ·) := by
    obtain ⟨more, hmore, rfl⟩ := Option.map_eq_some_iff.mp hfound
    rw [ih more hmore, Option.map_map]
    rfl
  induction s generalizing place tokens with
  | nil =>
    cases place with
    | content =>
      obtain rfl := Option.some.inj h
      simp
    | markup quote read => nomatch h
    | reference read => nomatch h
  | cons c s ih =>
    rw [List.cons_append]
    cases place with
    | content =>
      rw [lexFrom] at h ⊢
      split_ifs at h ⊢
      · exact ih h
      · exact ih h
      · exact hcons _ h fun _ => ih
    | markup quote read =>
      cases quote with
      | none =>
        rw [lexFrom] at h ⊢
        split_ifs at h ⊢
        · cases htag : readTag read.reverse with
          | none =>
            rw [htag] at h
            nomatch h
          | some token =>
            rw [htag] at h
            exact hcons _ h fun _ => ih
        · exact ih h
        · exact ih h
      | some quote =>
        rw [lexFrom] at h ⊢
        split_ifs at h ⊢
        · exact ih h
        · exact ih h
    | reference read =>
      rw [lexFrom] at h ⊢
      split_ifs at h ⊢
      · cases hchar : entityChar read with
        | none =>
          rw [hchar] at h
          nomatch h
        | some d =>
          rw [hchar] at h
          exact hcons _ h fun _ => ih
      · exact ih h

/-! ## 5. Parts of a document -/

/-- The string is read as those tokens, whatever follows it. -/
def Reads (s : Points) (tokens : List Token) : Prop :=
  ∀ rest, lexFrom .content (normalizeLines (writtenText (s ++ rest))) =
    (lexFrom .content (normalizeLines (writtenText rest))).map (tokens ++ ·)

theorem reads_append {s t : Points} {tokens more : List Token} (hs : Reads s tokens)
    (ht : Reads t more) : Reads (s ++ t) (tokens ++ more) := by
  intro rest
  rw [List.append_assoc, hs, ht, Option.map_map]
  refine congrArg (fun f => Option.map f _) (funext fun found => ?_)
  rw [Function.comp_apply, List.append_assoc]

/-- A literal without CR is read as its own tokens. -/
theorem reads_literal {s : Points} {tokens : List Token} (hcr : '\r' ∉ writtenText s)
    (h : lexFrom .content (writtenText s) = some tokens) : Reads s tokens := by
  intro rest
  rw [writtenText_append, normalizeLines_append hcr, lexFrom_append h]

/-- The characters of a string as they are read: line ends are LF. -/
def readText (s : Points) : Text := normalizeLines (writtenText s)

/-- `escapeXml(value)`. -/
def escapeXml (value : Points) : Points := value.flatMap escapePoint

/-- The entity of a character is read as the character. -/
theorem lexFrom_escapePoint (c : CodePoint) (hcr : written c ≠ '\r') (rest : Text) :
    lexFrom .content (normalizeLines (writtenText (escapePoint c) ++ rest)) =
      (lexFrom .content (normalizeLines rest)).map (.character (written c) :: ·) := by
  unfold escapePoint
  by_cases hamp : c = .scalar '&'
  · rw [if_pos hamp, hamp]
    rfl
  · by_cases hlt : c = .scalar '<'
    · rw [if_neg hamp, if_pos hlt, hlt]
      rfl
    · by_cases hgt : c = .scalar '>'
      · rw [if_neg hamp, if_neg hlt, if_pos hgt, hgt]
        rfl
      · by_cases hquot : c = .scalar '"'
        · rw [if_neg hamp, if_neg hlt, if_neg hgt, if_pos hquot, hquot]
          rfl
        · by_cases hapos : c = .scalar '\''
          · rw [if_neg hamp, if_neg hlt, if_neg hgt, if_neg hquot, if_pos hapos, hapos]
            rfl
          · rw [if_neg hamp, if_neg hlt, if_neg hgt, if_neg hquot, if_neg hapos]
            have hplain : written c ≠ '<' ∧ written c ≠ '&' ∧ written c ≠ '>' := by
              cases c with
              | scalar c =>
                exact ⟨fun h => hlt (by rw [show c = '<' from h]),
                  fun h => hamp (by rw [show c = '&' from h]),
                  fun h => hgt (by rw [show c = '>' from h])⟩
              | surrogate n =>
                exact ⟨(by decide : '\uFFFD' ≠ '<'), (by decide : '\uFFFD' ≠ '&'),
                  (by decide : '\uFFFD' ≠ '>')⟩
            show lexFrom .content (normalizeLines (written c :: rest)) = _
            rw [normalizeLines_cons hcr, lexFrom, if_neg hplain.1, if_neg hplain.2.1,
              if_neg hplain.2.2]

/-- A CR that no LF follows. -/
theorem normalizeLines_cr {s : Text} (h : ∀ more, s ≠ '\n' :: more) :
    normalizeLines ('\r' :: s) = '\n' :: normalizeLines s := by
  rw [normalizeLines]
  exact h

theorem normalizeLines_cr_lf (s : Text) :
    normalizeLines ('\r' :: '\n' :: s) = '\n' :: normalizeLines s := rfl

theorem lexFrom_lineFeed (s : Text) :
    lexFrom .content ('\n' :: s) = (lexFrom .content s).map (.character '\n' :: ·) := rfl

/-- What is written of a code point begins with a line feed only if it is one. -/
theorem escapePoint_lineFeed {c : CodePoint} (h : written c ≠ '\n') (rest more : Text) :
    writtenText (escapePoint c) ++ rest ≠ '\n' :: more := by
  unfold escapePoint
  split_ifs
  all_goals intro heq
  · exact absurd (List.cons.inj heq).1 (by decide : '&' ≠ '\n')
  · exact absurd (List.cons.inj heq).1 (by decide : '&' ≠ '\n')
  · exact absurd (List.cons.inj heq).1 (by decide : '&' ≠ '\n')
  · exact absurd (List.cons.inj heq).1 (by decide : '&' ≠ '\n')
  · exact absurd (List.cons.inj heq).1 (by decide : '&' ≠ '\n')
  · exact h (List.cons.inj heq).1

theorem eq_of_written {c : CodePoint} {d : Char} (h : written c = d) (hd : d ≠ '\uFFFD') :
    c = .scalar d := by
  cases c with
  | scalar c => exact congrArg CodePoint.scalar h
  | surrogate n => exact absurd h.symm hd

/-- **An escaped text before markup** is read as its characters, its line ends as LF. -/
theorem lexFrom_escapeXml : ∀ (value : Points) (rest : Text),
    lexFrom .content (normalizeLines (writtenText (escapeXml value) ++ '<' :: rest)) =
      (lexFrom .content (normalizeLines ('<' :: rest))).map
        ((readText value).map Token.character ++ ·)
  | [], rest => by
      show _ = (lexFrom .content (normalizeLines ('<' :: rest))).map ([] ++ ·)
      simp only [List.nil_append, Option.map_id']
      rfl
  | c :: value, rest => by
      have hcons (value : Points) (t : Char) (found : Option (List Token)) :
          (found.map ((readText value).map Token.character ++ ·)).map (.character t :: ·) =
            found.map ((t :: readText value).map Token.character ++ ·) := by
        rw [Option.map_map]
        rfl
      have hsplit (c : CodePoint) (value : Points) :
          writtenText (escapeXml (c :: value)) ++ '<' :: rest =
            writtenText (escapePoint c) ++ (writtenText (escapeXml value) ++ '<' :: rest) := by
        rw [← List.append_assoc]
        exact congrArg (· ++ '<' :: rest) (writtenText_append _ _)
      rw [hsplit]
      by_cases hcr : written c = '\r'
      · obtain rfl := eq_of_written hcr (by decide)
        show lexFrom .content (normalizeLines ('\r' :: (writtenText (escapeXml value) ++ '<' :: rest)))
          = _
        cases value with
        | nil =>
          have hnext : ∀ more, '<' :: rest ≠ '\n' :: more := fun more h =>
            absurd (List.cons.inj h).1 (by decide)
          show lexFrom .content (normalizeLines ('\r' :: '<' :: rest)) = _
          rw [normalizeLines_cr hnext, lexFrom_lineFeed]
          rfl
        | cons d value =>
          by_cases hlf : written d = '\n'
          · obtain rfl := eq_of_written hlf (by decide)
            have ih := lexFrom_escapeXml value rest
            show lexFrom .content (normalizeLines
              ('\r' :: '\n' :: (writtenText (escapeXml value) ++ '<' :: rest))) = _
            rw [normalizeLines_cr_lf, lexFrom_lineFeed, ih, hcons]
            rfl
          · have ih := lexFrom_escapeXml (d :: value) rest
            have hread : readText (.scalar '\r' :: d :: value) = '\n' :: readText (d :: value) :=
              normalizeLines_cr fun more h => hlf (List.cons.inj h).1
            rw [hsplit] at ih ⊢
            rw [normalizeLines_cr (escapePoint_lineFeed hlf _), lexFrom_lineFeed, ih, hcons,
              hread]
      · have hread : readText (c :: value) = written c :: readText value :=
          normalizeLines_cons hcr _
        rw [lexFrom_escapePoint c hcr, lexFrom_escapeXml value rest, hcons, hread]

/-! ## 6. Elements of a document -/

/-- The tokens are read as those items, whatever stands around them. -/
def Builds (tokens : List Token) (items : List Item) : Prop :=
  ∀ before stack rest, build before stack (tokens ++ rest) = build (before ++ items) stack rest

/-- The string is read as those items, whatever stands around it. -/
def Parses (s : Points) (items : List Item) : Prop :=
  ∃ tokens, Reads s tokens ∧ Builds tokens items

theorem parses_nil : Parses [] [] := by
  refine ⟨[], fun rest => ?_, fun before stack rest => ?_⟩
  · simp only [List.nil_append, Option.map_id']
  · rw [List.append_nil, List.nil_append]

theorem builds_append {tokens others : List Token} {items more : List Item}
    (h : Builds tokens items) (hmore : Builds others more) :
    Builds (tokens ++ others) (items ++ more) := by
  intro before stack rest
  rw [List.append_assoc, h, hmore, List.append_assoc]

theorem parses_append {s t : Points} {items more : List Item} (hs : Parses s items)
    (ht : Parses t more) : Parses (s ++ t) (items ++ more) := by
  obtain ⟨tokens, hreads, hbuilds⟩ := hs
  obtain ⟨others, hreads', hbuilds'⟩ := ht
  exact ⟨tokens ++ others, reads_append hreads hreads', builds_append hbuilds hbuilds'⟩

/-- Parts of a string one after the other. -/
theorem parses_flatMap {α : Type} {parts : List α} {text : α → Points} {items : α → List Item}
    (h : ∀ part ∈ parts, Parses (text part) (items part)) :
    Parses (parts.flatMap text) (parts.flatMap items) := by
  induction parts with
  | nil => exact parses_nil
  | cons part parts ih =>
    rw [List.flatMap_cons, List.flatMap_cons]
    exact parses_append (h part List.mem_cons_self)
      (ih fun other hother => h other (List.mem_cons_of_mem _ hother))

theorem builds_characters (chars : Text) :
    Builds (chars.map Token.character) (chars.map Item.character) := by
  intro before stack rest
  induction chars generalizing before with
  | nil => rw [List.map_nil, List.nil_append, List.map_nil, List.append_nil]
  | cons c chars ih =>
    rw [List.map_cons, List.cons_append, build, ih, List.map_cons, List.append_assoc]
    rfl

theorem builds_element {tokens : List Token} {children : List Item} (name : Text)
    (attributes : Attributes) (h : Builds tokens children) :
    Builds (.startTag name attributes :: (tokens ++ [.endTag name]))
      [.element name attributes children] := by
  intro before stack rest
  rw [List.cons_append, List.append_assoc, build, h, List.singleton_append, build, if_pos rfl,
    List.nil_append]

/-- An element, its tags and what is between them, with white space before the tags. -/
theorem parses_spacedElement {first inner last : Points} {name before after : Text}
    {attributes : Attributes} {children : List Item}
    (hfirst : Reads first (before.map Token.character ++ [.startTag name attributes]))
    (hinner : Parses inner children)
    (hlast : Reads last (after.map Token.character ++ [.endTag name])) :
    Parses (first ++ (inner ++ last)) (before.map Item.character ++
      [.element name attributes (children ++ after.map Item.character)]) := by
  obtain ⟨tokens, hreads, hbuilds⟩ := hinner
  have hread := reads_append hfirst (reads_append hreads hlast)
  have hbuild := builds_append (builds_characters before)
    (builds_element name attributes (builds_append hbuilds (builds_characters after)))
  refine ⟨_, hread, ?_⟩
  have htokens : before.map Token.character ++ [.startTag name attributes] ++
      (tokens ++ (after.map Token.character ++ [.endTag name])) =
      before.map Token.character ++ .startTag name attributes ::
        (tokens ++ after.map Token.character ++ [.endTag name]) := by simp
  rw [htokens]
  exact hbuild

/-- An element, its tags and what is between them. -/
theorem parses_element {first inner last : Points} {name : Text} {attributes : Attributes}
    {children : List Item} (hfirst : Reads first [.startTag name attributes])
    (hinner : Parses inner children) (hlast : Reads last [.endTag name]) :
    Parses (first ++ (inner ++ last)) [.element name attributes children] := by
  obtain ⟨tokens, hreads, hbuilds⟩ := hinner
  exact ⟨_, reads_append hfirst (reads_append hreads hlast), builds_element name attributes hbuilds⟩

/-- An empty element. -/
theorem parses_empty {tag : Points} {name : Text} {attributes : Attributes}
    (h : Reads tag [.emptyTag name attributes]) : Parses tag [.element name attributes []] := by
  refine ⟨_, h, fun before stack rest => ?_⟩
  rw [List.singleton_append, build]

/-- Characters of content that need no escape. -/
theorem parses_characters {s : Points} {chars : Text}
    (h : Reads s (chars.map Token.character)) : Parses s (chars.map Item.character) :=
  ⟨_, h, builds_characters chars⟩

/-- **An element of a text**, escaped: its characters, line ends as LF. -/
theorem parses_textElement {first last : Points} {name : Text} {attributes : Attributes}
    (value : Points) (hfirst : Reads first [.startTag name attributes])
    (hlast : Reads last [.endTag name]) (hmarkup : ∃ more, writtenText last = '<' :: more) :
    Parses (first ++ (escapeXml value ++ last))
      [.element name attributes ((readText value).map Item.character)] := by
  obtain ⟨more, hmore⟩ := hmarkup
  have htext : Reads (escapeXml value ++ last)
      ((readText value).map Token.character ++ [.endTag name]) := by
    intro rest
    have happend : writtenText (escapeXml value ++ last ++ rest) =
        writtenText (escapeXml value) ++ '<' :: (more ++ writtenText rest) := by
      rw [writtenText_append, writtenText_append, hmore, List.append_assoc, List.cons_append]
    have hlastRest : '<' :: (more ++ writtenText rest) = writtenText (last ++ rest) := by
      rw [writtenText_append, hmore, List.cons_append]
    rw [happend, lexFrom_escapeXml, hlastRest, hlast, Option.map_map]
    refine congrArg (fun f => Option.map f _) (funext fun found => ?_)
    rw [Function.comp_apply, List.append_assoc]
  exact ⟨_, reads_append hfirst htext, builds_element name attributes (builds_characters _)⟩

end Xml
