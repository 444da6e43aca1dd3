/-
  File:      OpenVac/Lib/JsString.lean
  Subject:   JavaScript string operations on lists of code points.

  * `isWhiteSpace`, `trim` -- ECMAScript's WhiteSpace and LineTerminator, and `trim`.
  * `utf16Length`, `clip`, `slice` -- `length` and `slice`, in UTF-16 code units.
  * `nfkc` -- `normalize("NFKC")`: plain texts are narrowed, others follow the host's tables.
-/
import Mathlib.Algebra.GroupWithZero.Nat
import Mathlib.Data.List.DropRight
import Mathlib.Data.List.Infix

namespace JsString

/-- A string, by its code points. -/
abbrev Text := List Char

/-- The code points of WhiteSpace and LineTerminator. -/
def isWhiteSpaceCode (n : Nat) : Bool :=
  (0x9 ≤ n && n ≤ 0xD) || n == 0x20 || n == 0xA0 || n == 0x1680 || (0x2000 ≤ n && n ≤ 0x200A) ||
    n == 0x2028 || n == 0x2029 || n == 0x202F || n == 0x205F || n == 0x3000 || n == 0xFEFF

/-- What `trim` removes and `\s` matches. -/
def isWhiteSpace (c : Char) : Bool := isWhiteSpaceCode c.toNat

def trimStart (s : List Char) : List Char := s.dropWhile isWhiteSpace

def trimEnd (s : List Char) : List Char := s.rdropWhile isWhiteSpace

def trim (s : List Char) : List Char := trimEnd (trimStart s)

/-- The rest of a text of which a run of blanks was just replaced, or not. -/
def collapseFrom (inRun : Bool) : List Char → List Char
  | [] => []
  | c :: rest =>
      if isWhiteSpace c then
        if inRun then collapseFrom true rest else ' ' :: collapseFrom true rest
      else c :: collapseFrom false rest

/-- `s.replace(/\s+/gu, " ")`. -/
def collapseSpaces (s : List Char) : List Char := collapseFrom false s

/-- `s.length`: code points past U+FFFF count twice. -/
def utf16Length (s : List Char) : Nat := (s.map fun c => if c.toNat < 0x10000 then 1 else 2).sum

/-- `parts.join(separator)`. -/
def join (separator : List Char) (parts : List (List Char)) : List Char :=
  List.intercalate separator parts

/-- `s.split(separator)` for one character. -/
def split (separator : Char) : List Char → List (List Char)
  | [] => [[]]
  | c :: rest =>
      if c = separator then [] :: split separator rest
      else
        match split separator rest with
        | [] => [[c]]
        | first :: more => (c :: first) :: more

def isDigit (c : Char) : Bool := decide ('0' ≤ c ∧ c ≤ '9')

/-- `Number(part)` for a part of a literal address: decimal digits, and 0 for the empty part. -/
def decimalPart (part : List Char) : Option Nat :=
  if part.all isDigit then some (part.foldl (fun n c => 10 * n + (c.toNat - '0'.toNat)) 0) else none

/-- `s.includes(part)`. -/
def includes (s part : List Char) : Bool := decide (part <:+: s)

/-- The longest prefix within a number of UTF-16 units: `s.slice(0, n)`, where a pair that the
    bound cuts in half is dropped. -/
def clip : Nat → List Char → List Char
  | _, [] => []
  | units, c :: rest =>
      let width := if c.toNat < 0x10000 then 1 else 2
      if width ≤ units then c :: clip (units - width) rest else []

/-- A UTF-16 code unit: a character of its own, or one half of a pair. -/
inductive CodeUnit where
  | whole (c : Char)
  | lead (c : Char)
  | trail (c : Char)

def codeUnits (s : List Char) : List CodeUnit :=
  s.flatMap fun c => if c.toNat < 0x10000 then [.whole c] else [.lead c, .trail c]

/-- The text of code units as UTF-8 keeps it: a half without the other is U+FFFD. -/
def ofCodeUnits : List CodeUnit → List Char
  | [] => []
  | .whole c :: rest => c :: ofCodeUnits rest
  | .lead c :: .trail _ :: rest => c :: ofCodeUnits rest
  | .lead _ :: rest => '\uFFFD' :: ofCodeUnits rest
  | .trail _ :: rest => '\uFFFD' :: ofCodeUnits rest

/-- `s.slice(start, stop)`. -/
def slice (start stop : Nat) (s : List Char) : List Char :=
  ofCodeUnits (((codeUnits s).take stop).drop start)

/-- The Unicode tables of the host: `normalize("NFKC")` and `toLocaleLowerCase()`. -/
class UnicodeTables where
  nfkc : List Char → List Char
  toLocaleLowerCase : List Char → List Char

/-- The hash function of the host: `createHash("sha256").update(text).digest("hex")`. -/
class Sha256 where
  hex : List Char → List Char

/-- The characters NFKC leaves alone or only narrows: ASCII, the CJK ideographs with `、`, `。`,
    `“` and `”`, and the fullwidth forms of ASCII. None of them combines with another. -/
def isWidthOnly (c : Char) : Bool :=
  let n := c.toNat
  n ≤ 0x7F || (0x4E00 ≤ n && n ≤ 0x9FFF) || n == 0x3001 || n == 0x3002 || n == 0x201C ||
    n == 0x201D || (0xFF01 ≤ n && n ≤ 0xFF5E)

def narrow (c : Char) : Char :=
  if 0xFF01 ≤ c.toNat ∧ c.toNat ≤ 0xFF5E then Char.ofNat (c.toNat - 0xFEE0) else c

/-- `s.normalize("NFKC")`. -/
def nfkc [UnicodeTables] (s : List Char) : List Char :=
  if s.all isWidthOnly then s.map narrow else UnicodeTables.nfkc s

end JsString
