/-
  File:      OpenVac/Knowledge/IpAddress.lean
  Subject:   Public IP addresses: `isPublicIpAddress` of server/knowledge/web-fetch.ts.

  * `isIP` of node:net is a parameter; the two parsers read what it accepts.
  * `Public4`, `Public6` -- the public addresses, by the octets of an IPv4 address and the groups of
    an IPv6 address.
  * `ipv4Public_iff`, `ipv6Public_iff` -- the range code decides them; `isPublicIpAddress_spec` --
    an accepted text reads as a public address.
-/
import Mathlib.Tactic.NormNum
import OpenVac.Lib.JsUrl

namespace OpenVac.Knowledge

open JsString JsUrl

/-- `isIP` of node:net: 4, 6, or 0. -/
class NetAddress where
  isIP : Text → Nat

/-! ## 1. Parsers -/

def ipv4ToNumber (address : Text) : Option Nat :=
  match (split '.' address).map decimalPart with
  | [some a, some b, some c, some d] =>
      if a ≤ 255 ∧ b ≤ 255 ∧ c ≤ 255 ∧ d ≤ 255 then
        some (a * 2 ^ 24 + b * 2 ^ 16 + c * 2 ^ 8 + d)
      else none
  | _ => none

def hexDigit (c : Char) : Option Nat :=
  if '0' ≤ c ∧ c ≤ '9' then some (c.toNat - '0'.toNat)
  else if 'a' ≤ c ∧ c ≤ 'f' then some (c.toNat - 'a'.toNat + 10)
  else none

/-- A group of one to four hexadecimal digits. -/
def hexGroup (group : Text) : Option Nat :=
  if group.length = 0 ∨ 4 < group.length then none
  else group.foldl (fun n c => n.bind fun n => (hexDigit c).map fun d => 16 * n + d) (some 0)

/-- `value.toString(16)` below 2^16. -/
def toHex (value : Nat) : Text := Nat.toDigits 16 value

/-- The text before and after the first `::`. -/
def splitCompression : Text → Option (Text × Text)
  | ':' :: ':' :: rest => some ([], rest)
  | [] => none
  | c :: rest => (splitCompression rest).map fun parts => (c :: parts.1, parts.2)

/-- The text before and after the last colon. -/
def splitLastColon (value : Text) : Option (Text × Text) :=
  match value.reverse.span (· != ':') with
  | (_, []) => none
  | (tail, _ :: head) => some (head.reverse, tail.reverse)

/-- A dotted tail as two groups. -/
def expandDotted (normalized : Text) : Option Text :=
  if normalized.contains '.' then
    match splitLastColon normalized with
    | none => none
    | some (head, tail) =>
        (ipv4ToNumber tail).map fun ipv4 =>
          head ++ [':'] ++ toHex (ipv4 / 2 ^ 16 % 2 ^ 16) ++ [':'] ++ toHex (ipv4 % 2 ^ 16)
  else some normalized

def groupsOf (part : Text) : List Text := if part.isEmpty then [] else split ':' part

/-- The eight groups of an address, the compressed ones filled in. -/
def ipv6Groups (normalized : Text) : Option (List Text) :=
  match splitCompression normalized with
  | none =>
      let left := groupsOf normalized
      if left.length ≠ 8 then none else some left
  | some (leftRaw, rightRaw) =>
      if (splitCompression rightRaw).isSome then none
      else
        let left := groupsOf leftRaw
        let right := groupsOf rightRaw
        if 8 ≤ left.length + right.length then none
        else some (left ++ List.replicate (8 - left.length - right.length) ['0'] ++ right)

def ipv6ToBigInt [CaseTables] (address : Text) : Option Nat := do
  let bare := (CaseTables.toLowerCase address).takeWhile (· != '%')
  let normalized ← expandDotted bare
  let groups ← ipv6Groups normalized
  let values ← groups.mapM hexGroup
  return values.foldl (fun result group => result * 2 ^ 16 + group) 0

/-! ## 2. Ranges -/

def octets (a b c d : Nat) : Nat := a * 2 ^ 24 + b * 2 ^ 16 + c * 2 ^ 8 + d

def IPV4_BLOCKS : List (Nat × Nat) :=
  [(octets 0 0 0 0, 8), (octets 10 0 0 0, 8), (octets 100 64 0 0, 10), (octets 127 0 0 0, 8),
   (octets 169 254 0 0, 16), (octets 172 16 0 0, 12), (octets 192 0 0 0, 24),
   (octets 192 0 2 0, 24), (octets 192 88 99 0, 24), (octets 192 168 0 0, 16),
   (octets 198 18 0 0, 15), (octets 198 51 100 0, 24), (octets 203 0 113 0, 24),
   (octets 224 0 0 0, 3)]

/-- The groups of an IPv6 address as a number. -/
def groups (a b c d e f g h : Nat) : Nat :=
  ((((((a * 2 ^ 16 + b) * 2 ^ 16 + c) * 2 ^ 16 + d) * 2 ^ 16 + e) * 2 ^ 16 + f) * 2 ^ 16 + g) *
    2 ^ 16 + h

def IPV6_BLOCKS : List (Nat × Nat) :=
  [(groups 0 0 0 0 0 0 0 0, 128), (groups 0 0 0 0 0 0 0 1, 128), (groups 0x64 0xff9b 0 0 0 0 0 0, 96),
   (groups 0x64 0xff9b 1 0 0 0 0 0, 48), (groups 0x100 0 0 0 0 0 0 0, 64),
   (groups 0x2001 0 0 0 0 0 0 0, 32), (groups 0x2001 0x10 0 0 0 0 0 0, 28),
   (groups 0x2001 0x20 0 0 0 0 0 0, 28), (groups 0x2001 0xdb8 0 0 0 0 0 0, 32),
   (groups 0x2002 0 0 0 0 0 0 0, 16), (groups 0xfc00 0 0 0 0 0 0 0, 7),
   (groups 0xfe80 0 0 0 0 0 0 0, 10), (groups 0xff00 0 0 0 0 0 0 0, 8)]

def inIpv4Cidr (value base leading : Nat) : Bool :=
  value / 2 ^ (32 - leading) == base / 2 ^ (32 - leading)

def inIpv6Cidr (value base leading : Nat) : Bool :=
  value / 2 ^ (128 - leading) == base / 2 ^ (128 - leading)

def ipv4Public (value : Nat) : Bool :=
  !IPV4_BLOCKS.any fun block => inIpv4Cidr value block.1 block.2

def ipv6Public (value : Nat) : Bool :=
  let high96 := value / 2 ^ 32
  if high96 = 0 ∨ high96 = 0xffff then ipv4Public (value % 2 ^ 32)
  else !IPV6_BLOCKS.any fun block => inIpv6Cidr value block.1 block.2

def isPublicIpAddress [NetAddress] [CaseTables] (address : Text) : Bool :=
  if NetAddress.isIP address = 4 then (ipv4ToNumber address).any ipv4Public
  else if NetAddress.isIP address = 6 then (ipv6ToBigInt address).any ipv6Public
  else false

/-! ## 3. The public addresses -/

/-- Not this network, private, shared, loopback, link-local, reserved for protocols or
    documentation, 6to4 relay, benchmarking, multicast or above. -/
def Public4 (a b c : Nat) : Prop :=
  a ≠ 0 ∧ a ≠ 10 ∧ ¬ (a = 100 ∧ 64 ≤ b ∧ b ≤ 127) ∧ a ≠ 127 ∧ ¬ (a = 169 ∧ b = 254) ∧
    ¬ (a = 172 ∧ 16 ≤ b ∧ b ≤ 31) ∧ ¬ (a = 192 ∧ b = 0 ∧ c = 0) ∧
    ¬ (a = 192 ∧ b = 0 ∧ c = 2) ∧ ¬ (a = 192 ∧ b = 88 ∧ c = 99) ∧ ¬ (a = 192 ∧ b = 168) ∧ ¬ (a = 198 ∧ 18 ≤ b ∧ b ≤ 19) ∧
    ¬ (a = 198 ∧ b = 51 ∧ c = 100) ∧ ¬ (a = 203 ∧ b = 0 ∧ c = 113) ∧ a < 224

/-- Of an embedded IPv4 address, that it is public; else not NAT64, discard-only, Teredo, ORCHID,
    documentation, 6to4, unique-local, link-local or multicast. -/
def Public6 (a b c d e f g h : Nat) : Prop :=
  if a = 0 ∧ b = 0 ∧ c = 0 ∧ d = 0 ∧ e = 0 ∧ (f = 0 ∨ f = 0xffff) then
    Public4 (g / 256) (g % 256) (h / 256)
  else
    ¬ (a = 0x64 ∧ b = 0xff9b ∧ c = 0 ∧ d = 0 ∧ e = 0 ∧ f = 0) ∧ ¬ (a = 0x64 ∧ b = 0xff9b ∧ c = 1) ∧
      ¬ (a = 0x100 ∧ b = 0 ∧ c = 0 ∧ d = 0) ∧ ¬ (a = 0x2001 ∧ b = 0) ∧
      ¬ (a = 0x2001 ∧ 0x10 ≤ b ∧ b ≤ 0x1f) ∧ ¬ (a = 0x2001 ∧ 0x20 ≤ b ∧ b ≤ 0x2f) ∧
      ¬ (a = 0x2001 ∧ b = 0xdb8) ∧ a ≠ 0x2002 ∧
      ¬ (0xfc00 ≤ a ∧ a ≤ 0xfdff) ∧ ¬ (0xfe80 ≤ a ∧ a ≤ 0xfebf) ∧ a < 0xff00

theorem octets_div {a b c d : Nat} (hb : b ≤ 255) (hc : c ≤ 255) (hd : d ≤ 255) :
    octets a b c d / 2 ^ 24 = a ∧ octets a b c d / 2 ^ 16 = 256 * a + b ∧
      octets a b c d / 2 ^ 8 = 256 * (256 * a + b) + c ∧ octets a b c d / 2 ^ 22 = 4 * a + b / 64 ∧
      octets a b c d / 2 ^ 20 = 16 * a + b / 16 ∧ octets a b c d / 2 ^ 17 = 128 * a + b / 2 ∧
      octets a b c d / 2 ^ 29 = a / 32 := by
  unfold octets
  refine ⟨?_, ?_, ?_, ?_, ?_, ?_, ?_⟩ <;> omega

/-- **The IPv4 ranges**: an address passes exactly if its octets are public. -/
theorem ipv4Public_iff {a b c d : Nat} (ha : a ≤ 255) (hb : b ≤ 255) (hc : c ≤ 255) (hd : d ≤ 255) :
    ipv4Public (octets a b c d) = true ↔ Public4 a b c := by
  obtain ⟨h24, h16, h8, h22, h20, h17, h29⟩ := octets_div (a := a) hb hc hd
  have hblocks : ipv4Public (octets a b c d) = true ↔
      ∀ block ∈ IPV4_BLOCKS, octets a b c d / 2 ^ (32 - block.2) ≠ block.1 / 2 ^ (32 - block.2) := by
    unfold ipv4Public inIpv4Cidr
    simp
  rw [hblocks]
  unfold IPV4_BLOCKS
  simp only [List.forall_mem_cons, List.not_mem_nil, false_implies, implies_true, and_true]
  norm_num only [octets] at h24 h16 h8 h22 h20 h17 h29 ⊢
  rw [h24, h16, h8, h22, h20, h17, h29]
  unfold Public4
  -- one range for each conjunct
  repeat' refine and_congr ?_ ?_
  all_goals omega

theorem groups_div {a b c d e f g h : Nat} (hb : b < 65536) (hc : c < 65536) (hd : d < 65536)
    (he : e < 65536) (hf : f < 65536) (hg : g < 65536) (hh : h < 65536) :
    groups a b c d e f g h / 2 ^ 32 =
        ((((a * 65536 + b) * 65536 + c) * 65536 + d) * 65536 + e) * 65536 + f ∧
      groups a b c d e f g h % 2 ^ 32 = g * 65536 + h ∧
      groups a b c d e f g h / 2 ^ 64 = ((a * 65536 + b) * 65536 + c) * 65536 + d ∧
      groups a b c d e f g h / 2 ^ 80 = (a * 65536 + b) * 65536 + c ∧
      groups a b c d e f g h / 2 ^ 96 = a * 65536 + b ∧
      groups a b c d e f g h / 2 ^ 100 = a * 4096 + b / 16 ∧
      groups a b c d e f g h / 2 ^ 112 = a ∧ groups a b c d e f g h / 2 ^ 121 = a / 512 ∧
      groups a b c d e f g h / 2 ^ 118 = a / 64 ∧ groups a b c d e f g h / 2 ^ 120 = a / 256 := by
  unfold groups
  refine ⟨?_, ?_, ?_, ?_, ?_, ?_, ?_, ?_, ?_, ?_⟩ <;> omega

/-- The last two groups as octets. -/
theorem embedded_octets {g h : Nat} (hg : g < 65536) (hh : h < 65536) :
    ipv4Public (g * 65536 + h) = true ↔ Public4 (g / 256) (g % 256) (h / 256) := by
  have heq : g * 65536 + h = octets (g / 256) (g % 256) (h / 256) (h % 256) := by
    unfold octets
    omega
  rw [heq]
  exact ipv4Public_iff (by omega) (by omega) (by omega) (by omega)

/-- **The IPv6 ranges**: an address passes exactly if its groups are public. -/
theorem ipv6Public_iff {a b c d e f g h : Nat} (ha : a < 65536) (hb : b < 65536) (hc : c < 65536)
    (hd : d < 65536) (he : e < 65536) (hf : f < 65536) (hg : g < 65536) (hh : h < 65536) :
    ipv6Public (groups a b c d e f g h) = true ↔ Public6 a b c d e f g h := by
  obtain ⟨h32, hlow, h64, h80, h96, h100, h112, h121, h118, h120⟩ :=
    groups_div (a := a) hb hc hd he hf hg hh
  have hmapped : groups a b c d e f g h / 2 ^ 32 = 0 ∨ groups a b c d e f g h / 2 ^ 32 = 0xffff ↔
      a = 0 ∧ b = 0 ∧ c = 0 ∧ d = 0 ∧ e = 0 ∧ (f = 0 ∨ f = 0xffff) := by
    rw [h32]
    omega
  unfold ipv6Public Public6
  dsimp only
  by_cases hm : a = 0 ∧ b = 0 ∧ c = 0 ∧ d = 0 ∧ e = 0 ∧ (f = 0 ∨ f = 0xffff)
  · rw [if_pos (hmapped.mpr hm), if_pos hm, hlow]
    exact embedded_octets hg hh
  · rw [if_neg (fun hc => hm (hmapped.mp hc)), if_neg hm]
    have hblocks : (!IPV6_BLOCKS.any fun block =>
          inIpv6Cidr (groups a b c d e f g h) block.1 block.2) = true ↔
        ∀ block ∈ IPV6_BLOCKS,
          groups a b c d e f g h / 2 ^ (128 - block.2) ≠ block.1 / 2 ^ (128 - block.2) := by
      unfold inIpv6Cidr
      simp
    rw [hblocks]
    unfold IPV6_BLOCKS
    simp only [List.forall_mem_cons, List.not_mem_nil, false_implies, implies_true, and_true]
    have hzero : groups a b c d e f g h ≠ 0 ∧ groups a b c d e f g h ≠ 1 := by
      have hne := fun hc => hm (hmapped.mp (Or.inl hc))
      omega
    generalize groups a b c d e f g h = value at *
    norm_num only [groups] at h32 h64 h80 h96 h100 h112 h121 h118 h120 hzero ⊢
    rw [Nat.div_one, and_iff_right hzero.1, and_iff_right hzero.2, h32, h80, h64, h96, h100, h112, h121, h118,
      h120]
    -- one range for each conjunct
    repeat' refine and_congr ?_ ?_
    all_goals omega

/-! ## 4. Accepted texts -/

theorem hexDigit_lt {c : Char} {d : Nat} (h : hexDigit c = some d) : d < 16 := by
  unfold hexDigit at h
  have hlo : '0'.toNat = 48 ∧ 'a'.toNat = 97 := by decide
  split at h
  · next hc =>
    have hc2 : c.toNat ≤ '9'.toNat := hc.2
    have h9 : '9'.toNat = 57 := by decide
    obtain rfl := Option.some.inj h
    omega
  · split at h
    · next hc =>
      have hc2 : c.toNat ≤ 'f'.toNat := hc.2
      have hf : 'f'.toNat = 102 := by decide
      obtain rfl := Option.some.inj h
      omega
    · nomatch h

/-- Reading digits on reads the first one. -/
theorem hexFold_cons {c : Char} {rest : Text} {n value : Nat}
    (h : (c :: rest).foldl (fun n c => n.bind fun n => (hexDigit c).map fun d => 16 * n + d)
      (some n) = some value) :
    ∃ d, hexDigit c = some d ∧
      rest.foldl (fun n c => n.bind fun n => (hexDigit c).map fun d => 16 * n + d)
        (some (16 * n + d)) = some value := by
  rw [List.foldl_cons, Option.bind_some] at h
  cases hd : hexDigit c with
  | none =>
    have hnone : ∀ l : Text, l.foldl
        (fun n c => n.bind fun n => (hexDigit c).map fun d => 16 * n + d) none = none := by
      intro l
      induction l with
      | nil => rfl
      | cons _ _ ih => exact ih
    rw [hd, Option.map_none, hnone] at h
    nomatch h
  | some d =>
    rw [hd, Option.map_some] at h
    exact ⟨d, rfl, h⟩

/-- Reading digits on from a number multiplies by 16 for each. -/
theorem hexFold_lt (group : Text) {n value : Nat}
    (h : group.foldl (fun n c => n.bind fun n => (hexDigit c).map fun d => 16 * n + d) (some n) =
      some value) : value < (n + 1) * 16 ^ group.length := by
  induction group generalizing n with
  | nil =>
    obtain rfl := Option.some.inj h
    simp
  | cons c rest ih =>
    obtain ⟨d, hd, h⟩ := hexFold_cons h
    have hd16 := hexDigit_lt hd
    calc value < (16 * n + d + 1) * 16 ^ rest.length := ih h
      _ ≤ ((n + 1) * 16) * 16 ^ rest.length := Nat.mul_le_mul_right _ (by omega)
      _ = (n + 1) * 16 ^ (c :: rest).length := by
          rw [List.length_cons, Nat.pow_succ, Nat.mul_assoc, Nat.mul_comm 16]

theorem hexGroup_lt {group : Text} {value : Nat} (h : hexGroup group = some value) :
    value < 65536 := by
  unfold hexGroup at h
  split at h
  · nomatch h
  · next hlen =>
    have hfold := hexFold_lt group h
    have hpow : 16 ^ group.length ≤ 16 ^ 4 := Nat.pow_le_pow_right (by decide) (by omega)
    omega

theorem ipv6Groups_length {normalized : Text} {parts : List Text}
    (h : ipv6Groups normalized = some parts) : parts.length = 8 := by
  unfold ipv6Groups at h
  split at h
  · dsimp only at h
    split at h
    · nomatch h
    · next hlen =>
      obtain rfl := Option.some.inj h
      exact not_not.mp hlen
  · split at h
    · nomatch h
    · dsimp only at h
      split at h
      · nomatch h
      · next hlen =>
        obtain rfl := Option.some.inj h
        rw [List.length_append, List.length_append, List.length_replicate]
        omega

/-- Eight parsed groups, each of 16 bits. -/
theorem mapM_hexGroup {parts : List Text} {values : List Nat} (h : parts.mapM hexGroup = some values) :
    values.length = parts.length ∧ ∀ value ∈ values, value < 65536 := by
  induction parts generalizing values with
  | nil =>
    obtain rfl := Option.some.inj h
    exact ⟨rfl, fun _ hv => absurd hv List.not_mem_nil⟩
  | cons part rest ih =>
    rw [List.mapM_cons] at h
    obtain ⟨value, hvalue, h⟩ := Option.bind_eq_some_iff.mp h
    obtain ⟨more, hmore, h⟩ := Option.bind_eq_some_iff.mp h
    obtain rfl := Option.some.inj h
    obtain ⟨hlen, hall⟩ := ih hmore
    refine ⟨by rw [List.length_cons, List.length_cons, hlen], fun v hv => ?_⟩
    rcases List.mem_cons.mp hv with rfl | hv
    · exact hexGroup_lt hvalue
    · exact hall v hv

theorem ipv4ToNumber_octets {address : Text} {value : Nat} (h : ipv4ToNumber address = some value) :
    ∃ a b c d, a ≤ 255 ∧ b ≤ 255 ∧ c ≤ 255 ∧ d ≤ 255 ∧ value = octets a b c d := by
  unfold ipv4ToNumber at h
  split at h
  · next a b c d _ =>
    split at h
    · next hle =>
      obtain rfl := Option.some.inj h
      exact ⟨a, b, c, d, hle.1, hle.2.1, hle.2.2.1, hle.2.2.2, rfl⟩
    · nomatch h
  · nomatch h

section Host

variable [NetAddress] [CaseTables]

/-- The text is a public IPv4 or IPv6 address. -/
def PublicAddress (address : Text) : Prop :=
  (NetAddress.isIP address = 4 ∧ ∃ a b c d, a ≤ 255 ∧ b ≤ 255 ∧ c ≤ 255 ∧ d ≤ 255 ∧
    ipv4ToNumber address = some (octets a b c d) ∧ Public4 a b c) ∨
  (NetAddress.isIP address = 6 ∧ ∃ a b c d e f g h, a < 65536 ∧ b < 65536 ∧ c < 65536 ∧ d < 65536 ∧
    e < 65536 ∧ f < 65536 ∧ g < 65536 ∧ h < 65536 ∧
    ipv6ToBigInt address = some (groups a b c d e f g h) ∧ Public6 a b c d e f g h)

omit [NetAddress] in
theorem ipv6ToBigInt_groups {address : Text} {value : Nat} (h : ipv6ToBigInt address = some value) :
    ∃ a b c d e f g k, a < 65536 ∧ b < 65536 ∧ c < 65536 ∧ d < 65536 ∧ e < 65536 ∧ f < 65536 ∧
      g < 65536 ∧ k < 65536 ∧ value = groups a b c d e f g k := by
  unfold ipv6ToBigInt at h
  dsimp only at h
  obtain ⟨normalized, -, h⟩ := Option.bind_eq_some_iff.mp h
  obtain ⟨parts, hparts, h⟩ := Option.bind_eq_some_iff.mp h
  obtain ⟨values, hvalues, h⟩ := Option.bind_eq_some_iff.mp h
  obtain rfl := Option.some.inj h
  obtain ⟨hlen, hall⟩ := mapM_hexGroup hvalues
  rw [ipv6Groups_length hparts] at hlen
  obtain ⟨a, b, c, d, e, f, g, k, rfl⟩ : ∃ a b c d e f g k, values = [a, b, c, d, e, f, g, k] := by
    match values, hlen with
    | [a, b, c, d, e, f, g, k], _ => exact ⟨a, b, c, d, e, f, g, k, rfl⟩
  refine ⟨a, b, c, d, e, f, g, k, hall a ?_, hall b ?_, hall c ?_, hall d ?_, hall e ?_, hall f ?_,
    hall g ?_, hall k ?_, ?_⟩
  all_goals simp [groups]

/-- **An accepted text is a public address.** -/
theorem isPublicIpAddress_spec {address : Text} (h : isPublicIpAddress address = true) :
    PublicAddress address := by
  unfold isPublicIpAddress at h
  by_cases h4 : NetAddress.isIP address = 4
  · rw [if_pos h4] at h
    obtain ⟨value, hvalue, hpublic⟩ := (Option.any_eq_true _ _).mp h
    obtain ⟨a, b, c, d, ha, hb, hc, hd, rfl⟩ := ipv4ToNumber_octets hvalue
    exact Or.inl ⟨h4, a, b, c, d, ha, hb, hc, hd, hvalue,
      (ipv4Public_iff ha hb hc hd).mp hpublic⟩
  · rw [if_neg h4] at h
    by_cases h6 : NetAddress.isIP address = 6
    · rw [if_pos h6] at h
      obtain ⟨value, hvalue, hpublic⟩ := (Option.any_eq_true _ _).mp h
      obtain ⟨a, b, c, d, e, f, g, k, ha, hb, hc, hd, he, hf, hg, hk, rfl⟩ :=
        ipv6ToBigInt_groups hvalue
      exact Or.inr ⟨h6, a, b, c, d, e, f, g, k, ha, hb, hc, hd, he, hf, hg, hk, hvalue,
        (ipv6Public_iff ha hb hc hd he hf hg hk).mp hpublic⟩
    · rw [if_neg h6] at h
      nomatch h

end Host

end OpenVac.Knowledge
