import Mathlib.Data.Nat.Basic
import Mathlib.Tactic.IntervalCases

/-!
# IP addresses — texts and the values they denote

The textual forms of IPv4 and IPv6 addresses: dotted quads, groups of hexadecimal digits,
one `::` for a run of zero groups, a dotted tail, a zone. Each form denotes a number, and
many forms denote the same one; subnets are about the number.
-/

namespace Effects

/-- An address, by its value. -/
inductive IpAddress where
  | v4 (value : Nat)
  | v6 (value : Nat)
  deriving DecidableEq, Repr

namespace IpAddress

/-! ## Digits -/

/-- The value of a hexadecimal digit, of either case. -/
def hexValue (c : Char) : Option Nat :=
  if '0' ≤ c ∧ c ≤ '9' then some (c.toNat - 48)
  else if 'a' ≤ c ∧ c ≤ 'f' then some (c.toNat - 87)
  else if 'A' ≤ c ∧ c ≤ 'F' then some (c.toNat - 55)
  else none

/-- The number a text of digits writes, after what was read before. -/
def readDigits (base : Nat) (value : Char → Option Nat) : Nat → List Char → Option Nat
  | read, [] => some read
  | read, c :: rest =>
    match value c with
    | some d => readDigits base value (base * read + d) rest
    | none => none

/-- One to four hexadecimal digits. -/
def hexGroup (text : List Char) : Option Nat :=
  if 1 ≤ text.length ∧ text.length ≤ 4 then readDigits 16 hexValue 0 text else none

/-- The value of a decimal digit. -/
def decimalValue (c : Char) : Option Nat :=
  if '0' ≤ c ∧ c ≤ '9' then some (c.toNat - 48) else none

/-- A decimal number up to 255, without leading zeros. -/
def octet (text : List Char) : Option Nat :=
  if 1 ≤ text.length ∧ text.length ≤ 3 ∧ (text.length = 1 ∨ text.head? ≠ some '0') then
    (readDigits 10 decimalValue 0 text).filter (· ≤ 255)
  else none

/-! ## The forms -/

/-- A dotted quad. -/
def quad (text : List Char) : Option Nat :=
  match (text.splitOn '.').mapM octet with
  | some [a, b, c, d] => some (((a * 256 + b) * 256 + c) * 256 + d)
  | _ => none

/-- Groups, of which the last may be a dotted quad, which stands for two. -/
def groups : List (List Char) → Option (List Nat)
  | [] => some []
  | [last] =>
    match hexGroup last with
    | some g => some [g]
    | none => (quad last).map fun a => [a / 65536, a % 65536]
  | part :: rest =>
    match hexGroup part, groups rest with
    | some g, some gs => some (g :: gs)
    | _, _ => none

/-- What stands before and after the first `::`. -/
def splitDouble : List Char → List Char × Option (List Char)
  | ':' :: ':' :: rest => ([], some rest)
  | c :: rest => (c :: (splitDouble rest).1, (splitDouble rest).2)
  | [] => ([], none)

/-- The groups of one side of a `::`; there may be none. -/
def sideGroups (read : List (List Char) → Option (List Nat)) (text : List Char) :
    Option (List Nat) :=
  if text = [] then some [] else read (text.splitOn ':')

/-- The value of eight groups. -/
def ofGroups (gs : List Nat) : Nat := gs.foldl (fun n g => 65536 * n + g) 0

/-- An IPv6 address without a zone. -/
def groupsText (text : List Char) : Option Nat :=
  match splitDouble text with
  | (whole, none) => ((groups (whole.splitOn ':')).filter (·.length = 8)).map ofGroups
  | (left, some right) =>
    match sideGroups (fun parts => parts.mapM hexGroup) left, sideGroups groups right with
    | some ls, some rs =>
      if ls.length + rs.length ≤ 7 then
        some (ofGroups (ls ++ List.replicate (8 - ls.length - rs.length) 0 ++ rs))
      else none
    | _, _ => none

/-- A character of a zone. -/
def isZoneChar (c : Char) : Bool := c.isAlphanum || c == '-' || c == '.' || c == ':'

/-- The value of an IPv6 address; a zone is no part of it. -/
def v6Text (text : List Char) : Option Nat :=
  match text.splitOn '%' with
  | [address] => groupsText address
  | [address, zone] => if zone ≠ [] ∧ zone.all isZoneChar then groupsText address else none
  | _ => none

/-- The address a text denotes. -/
def parse (text : List Char) : Option IpAddress :=
  match quad text with
  | some value => some (.v4 value)
  | none => (v6Text text).map .v6

/-- An IPv4 address as a dotted quad. -/
def quadText (value : Nat) : List Char :=
  (toString (value / 16777216)).toList ++ '.' :: ((toString (value / 65536 % 256)).toList ++
    '.' :: ((toString (value / 256 % 256)).toList ++ '.' :: (toString (value % 256)).toList))

/-! ## Embedded IPv4 addresses -/

/-- How an IPv6 address can hold an IPv4 address in its last 32 bits. -/
inductive Embedding where
  /-- `::ffff:0:0/96`. -/
  | mapped
  /-- `::/96`. -/
  | compatible
  /-- `64:ff9b::/96`. -/
  | nat64
  deriving DecidableEq, Repr

/-- The first 96 bits. -/
def Embedding.front : Embedding → Nat
  | mapped => 0xffff
  | compatible => 0
  | nat64 => 0x64ff9b0000000000000000

/-- The address of an embedding and an IPv4 address. -/
def Embedding.address (e : Embedding) (a : Nat) : Nat := 4294967296 * e.front + a

/-- The embedding an address is of. -/
def embedding (value : Nat) : Option Embedding :=
  if value / 4294967296 = Embedding.mapped.front then some .mapped
  else if value / 4294967296 = Embedding.compatible.front then some .compatible
  else if value / 4294967296 = Embedding.nat64.front then some .nat64
  else none

/-- The IPv4 address in an address. -/
def embedded (value : Nat) : Option Nat :=
  (embedding value).map fun _ => value % 4294967296

/-! ## Subnets -/

/-- A network and the number of bits that count. -/
structure Subnet where
  network : IpAddress
  bits : Nat
  deriving DecidableEq, Repr

/-- Exact prefix matching. -/
def Subnet.contains (subnet : Subnet) (address : IpAddress) : Bool :=
  match subnet.network, address with
  | .v4 network, .v4 value =>
    value / 2 ^ (32 - subnet.bits) == network / 2 ^ (32 - subnet.bits)
  | .v6 network, .v6 value =>
    value / 2 ^ (128 - subnet.bits) == network / 2 ^ (128 - subnet.bits)
  | _, _ => false

/-! ## What a value is bounded by -/

theorem readDigits_lt {base : Nat} {value : Char → Option Nat}
    (hvalue : ∀ c d, value c = some d → d < base) {text : List Char} {read n : Nat}
    (h : readDigits base value read text = some n) : n < (read + 1) * base ^ text.length := by
  induction text generalizing read with
  | nil =>
    obtain rfl := Option.some.inj h
    simp
  | cons c rest ih =>
    unfold readDigits at h
    split at h
    · next d hd =>
      have hlt := hvalue c d hd
      have hrest := ih h
      have hstep : base * read + d + 1 ≤ (read + 1) * base := by
        rw [Nat.add_mul, Nat.one_mul, Nat.mul_comm read base]
        omega
      calc n < (base * read + d + 1) * base ^ rest.length := hrest
        _ ≤ (read + 1) * base * base ^ rest.length := Nat.mul_le_mul_right _ hstep
        _ = (read + 1) * base ^ (c :: rest).length := by
          rw [List.length_cons, Nat.pow_succ, Nat.mul_assoc, Nat.mul_comm base]
    · cases h

theorem toNat_le {c d : Char} (h : c ≤ d) : c.toNat ≤ d.toNat := h

theorem hexValue_lt {c : Char} {d : Nat} (h : hexValue c = some d) : d < 16 := by
  unfold hexValue at h
  split at h
  · next hc =>
    have hle : c.toNat ≤ 57 := toNat_le hc.2
    obtain rfl := Option.some.inj h
    omega
  split at h
  · next hc =>
    have hle : c.toNat ≤ 102 := toNat_le hc.2
    obtain rfl := Option.some.inj h
    omega
  split at h
  · next hc =>
    have hle : c.toNat ≤ 70 := toNat_le hc.2
    obtain rfl := Option.some.inj h
    omega
  · cases h

theorem hexGroup_lt {text : List Char} {g : Nat} (h : hexGroup text = some g) : g < 65536 := by
  unfold hexGroup at h
  split at h
  · next hlength =>
    have hlt := readDigits_lt (fun c d hd => hexValue_lt hd) h
    have hpow : 16 ^ text.length ≤ 16 ^ 4 := Nat.pow_le_pow_right (by decide) hlength.2
    have hfour : (16 : Nat) ^ 4 = 65536 := by decide
    omega
  · cases h

theorem octet_lt {text : List Char} {n : Nat} (h : octet text = some n) : n < 256 := by
  unfold octet at h
  split at h
  · have hle : n ≤ 255 := by simpa using (Option.filter_eq_some_iff.mp h).2
    omega
  · cases h

theorem mapM_octet_lt {parts : List (List Char)} {ns : List Nat}
    (h : parts.mapM octet = some ns) : ∀ n ∈ ns, n < 256 := by
  induction parts generalizing ns with
  | nil =>
    obtain rfl := Option.some.inj h
    exact fun _ hn => by cases hn
  | cons part rest ih =>
    rw [List.mapM_cons] at h
    obtain ⟨n, hn, h⟩ := Option.bind_eq_some_iff.mp h
    obtain ⟨others, hothers, h⟩ := Option.bind_eq_some_iff.mp h
    obtain rfl := Option.some.inj h
    exact List.forall_mem_cons.mpr ⟨octet_lt hn, ih hothers⟩

theorem mapM_octet_some {parts : List (List Char)} {ns : List Nat}
    (h : parts.mapM octet = some ns) :
    parts.length = ns.length ∧ ∀ part ∈ parts, ∃ n, octet part = some n := by
  induction parts generalizing ns with
  | nil =>
    obtain rfl := Option.some.inj h
    exact ⟨rfl, fun _ hpart => by cases hpart⟩
  | cons part rest ih =>
    rw [List.mapM_cons] at h
    obtain ⟨n, hn, h⟩ := Option.bind_eq_some_iff.mp h
    obtain ⟨others, hothers, h⟩ := Option.bind_eq_some_iff.mp h
    obtain rfl := Option.some.inj h
    obtain ⟨hlength, hall⟩ := ih hothers
    exact ⟨congrArg (· + 1) hlength, List.forall_mem_cons.mpr ⟨⟨n, hn⟩, hall⟩⟩

theorem quad_lt {text : List Char} {a : Nat} (h : quad text = some a) : a < 4294967296 := by
  unfold quad at h
  split at h
  · next a b c d hparts =>
    have hlt := mapM_octet_lt hparts
    simp only [List.mem_cons, List.not_mem_nil, or_false, forall_eq_or_imp, forall_eq] at hlt
    obtain rfl := Option.some.inj h
    omega
  · cases h

/-! ## Case -/

/-- A map of characters that leaves what an address is read from alone. -/
structure Harmless (f : Char → Char) : Prop where
  hex : ∀ c, hexValue (f c) = hexValue c
  decimal : ∀ c, decimalValue (f c) = decimalValue c
  zero : ∀ c, f c = '0' ↔ c = '0'
  dot : ∀ c, f c = '.' ↔ c = '.'
  colon : ∀ c, f c = ':' ↔ c = ':'
  percent : ∀ c, f c = '%' ↔ c = '%'
  zone : ∀ c, isZoneChar (f c) = isZoneChar c

theorem splitOn_map {f : Char → Char} {sep : Char} (hsep : ∀ c, f c = sep ↔ c = sep)
    (text : List Char) : (text.map f).splitOn sep = (text.splitOn sep).map (List.map f) := by
  induction text with
  | nil => simp
  | cons c rest ih =>
    have hbeq : (f c == sep) = (c == sep) := by
      rw [Bool.eq_iff_iff, beq_iff_eq, beq_iff_eq]
      exact hsep c
    rw [List.map_cons, List.splitOn_cons_eq_if_modifyHead, List.splitOn_cons_eq_if_modifyHead,
      hbeq, ih]
    split
    · simp
    · cases rest.splitOn sep with
      | nil => rfl
      | cons head tail => simp

theorem readDigits_map {f : Char → Char} {base : Nat} {value : Char → Option Nat}
    (hvalue : ∀ c, value (f c) = value c) (text : List Char) (read : Nat) :
    readDigits base value read (text.map f) = readDigits base value read text := by
  induction text generalizing read with
  | nil => rfl
  | cons c rest ih =>
    simp only [List.map_cons, readDigits, hvalue]
    cases value c with
    | none => rfl
    | some d => exact ih _

theorem mapM_map {f : Char → Char} {read : List Char → Option Nat} (hread : ∀ text, read (text.map f) = read text)
    (parts : List (List Char)) : (parts.map (List.map f)).mapM read = parts.mapM read := by
  induction parts with
  | nil => rfl
  | cons part rest ih => rw [List.map_cons, List.mapM_cons, List.mapM_cons, hread, ih]

section case

variable {f : Char → Char} (hf : Harmless f)
include hf

theorem hexGroup_map (text : List Char) : hexGroup (text.map f) = hexGroup text := by
  unfold hexGroup
  rw [List.length_map, readDigits_map hf.hex]

theorem octet_map (text : List Char) : octet (text.map f) = octet text := by
  have hhead : (text.map f).head? ≠ some '0' ↔ text.head? ≠ some '0' := by
    cases text with
    | nil => simp
    | cons c rest => simpa using not_congr (hf.zero c)
  unfold octet
  rw [List.length_map, readDigits_map hf.decimal]
  simp only [hhead]

theorem quad_map (text : List Char) : quad (text.map f) = quad text := by
  unfold quad
  rw [splitOn_map hf.dot, mapM_map (octet_map hf)]

theorem groups_map (parts : List (List Char)) :
    groups (parts.map (List.map f)) = groups parts := by
  induction parts with
  | nil => rfl
  | cons part rest ih =>
    cases rest with
    | nil => simp only [List.map_cons, List.map_nil, groups, hexGroup_map hf, quad_map hf]
    | cons next others =>
      simp only [List.map_cons, groups, hexGroup_map hf]
      rw [← List.map_cons, ih]

theorem splitDouble_map (text : List Char) : splitDouble (text.map f) =
    ((splitDouble text).1.map f, (splitDouble text).2.map (List.map f)) := by
  induction text using splitDouble.induct with
  | case1 rest =>
    have hcolon : f ':' = ':' := (hf.colon ':').mpr rfl
    simp [splitDouble, hcolon]
  | case2 c rest hne ih =>
    have hnot : ∀ tail, ¬ (f c = ':' ∧ rest.map f = ':' :: tail) := by
      rintro tail ⟨hc, hrest⟩
      cases rest with
      | nil => cases hrest
      | cons d others =>
        obtain ⟨hd, -⟩ := List.cons.inj hrest
        exact hne others ((hf.colon c).mp hc) (by rw [(hf.colon d).mp hd])
    rw [List.map_cons, splitDouble.eq_2 _ _ (fun tail hc hrest => hnot tail ⟨hc, hrest⟩),
      splitDouble.eq_2 _ _ hne, ih]
    rfl
  | case3 => rfl

theorem sideGroups_map {read : List (List Char) → Option (List Nat)}
    (hread : ∀ parts, read (parts.map (List.map f)) = read parts) (text : List Char) :
    sideGroups read (text.map f) = sideGroups read text := by
  unfold sideGroups
  rw [splitOn_map hf.colon, hread]
  simp only [List.map_eq_nil_iff]

theorem groupsText_map (text : List Char) : groupsText (text.map f) = groupsText text := by
  unfold groupsText
  rw [splitDouble_map hf]
  rcases splitDouble text with ⟨left, _ | right⟩
  · simp only [Option.map_none, splitOn_map hf.colon, groups_map hf]
  · simp only [Option.map_some, sideGroups_map hf (groups_map hf),
      sideGroups_map hf (mapM_map (hexGroup_map hf))]

/-- Case does not change what is denoted. -/
theorem v6Text_map (text : List Char) : v6Text (text.map f) = v6Text text := by
  have hzone : ∀ zone : List Char, (zone.map f).all isZoneChar = zone.all isZoneChar := by
    intro zone
    rw [List.all_map]
    congr 1
    exact funext hf.zone
  unfold v6Text
  rw [splitOn_map hf.percent]
  rcases text.splitOn '%' with _ | ⟨address, _ | ⟨zone, _ | _⟩⟩
  · rfl
  · simp only [List.map_cons, List.map_nil, groupsText_map hf]
  · simp only [List.map_cons, List.map_nil, groupsText_map hf, hzone, ne_eq, List.map_eq_nil_iff]
  · rfl

end case

/-! ## Reading a quad back -/

theorem octet_digits : ∀ n < 256, octet (toString n).toList = some n ∧ '.' ∉ (toString n).toList := by
  decide +kernel

theorem quad_digits {a b c d : Nat} (ha : a < 256) (hb : b < 256) (hc : c < 256) (hd : d < 256) :
    quad ((toString a).toList ++ '.' :: ((toString b).toList ++ '.' :: ((toString c).toList ++
      '.' :: (toString d).toList))) = some (((a * 256 + b) * 256 + c) * 256 + d) := by
  obtain ⟨hreada, hdota⟩ := octet_digits a ha
  obtain ⟨hreadb, hdotb⟩ := octet_digits b hb
  obtain ⟨hreadc, hdotc⟩ := octet_digits c hc
  obtain ⟨hreadd, hdotd⟩ := octet_digits d hd
  unfold quad
  rw [List.splitOn_append_cons_self_of_not_mem hdota, List.splitOn_append_cons_self_of_not_mem hdotb,
    List.splitOn_append_cons_self_of_not_mem hdotc, List.splitOn_eq_singleton hdotd]
  simp only [List.mapM_cons, List.mapM_nil, hreada, hreadb, hreadc, hreadd]
  rfl

theorem quad_quadText {a : Nat} (h : a < 4294967296) : quad (quadText a) = some a := by
  unfold quadText
  rw [quad_digits (by omega) (by omega) (by omega) (by omega)]
  congr 1
  omega

/-! ## The texts of an embedding -/

theorem embedded_address (e : Embedding) {a : Nat} (h : a < 4294967296) :
    embedded (e.address a) = some a := by
  have hfront : e.address a / 4294967296 = e.front := by
    unfold Embedding.address
    omega
  have hrest : e.address a % 4294967296 = a := by
    unfold Embedding.address
    omega
  unfold embedded embedding
  rw [hfront, hrest]
  cases e <;> rfl

/-- An address that holds an IPv4 address is the address of an embedding. -/
theorem address_of_embedded {n a : Nat} (h : embedded n = some a) :
    ∃ e : Embedding, n = e.address a ∧ a < 4294967296 := by
  have hsplit : ∀ e : Embedding, n / 4294967296 = e.front →
      n = e.address (n % 4294967296) ∧ n % 4294967296 < 4294967296 := by
    intro e hfront
    unfold Embedding.address
    omega
  unfold embedded embedding at h
  split at h
  · next hfront =>
    obtain rfl : n % 4294967296 = a := Option.some.inj h
    exact ⟨.mapped, hsplit .mapped hfront⟩
  split at h
  · next hfront =>
    obtain rfl : n % 4294967296 = a := Option.some.inj h
    exact ⟨.compatible, hsplit .compatible hfront⟩
  split at h
  · next hfront =>
    obtain rfl : n % 4294967296 = a := Option.some.inj h
    exact ⟨.nat64, hsplit .nat64 hfront⟩
  · cases h

/-- The shortest text before the last 32 bits. -/
def Embedding.text : Embedding → List Char
  | mapped => [':', ':', 'f', 'f', 'f', 'f', ':']
  | compatible => [':', ':']
  | nat64 => ['6', '4', ':', 'f', 'f', '9', 'b', ':', ':']

theorem readDigits_chars {base : Nat} {value : Char → Option Nat} {text : List Char} {read n : Nat}
    (h : readDigits base value read text = some n) : ∀ c ∈ text, value c ≠ none := by
  induction text generalizing read with
  | nil => exact fun _ hc => by cases hc
  | cons c rest ih =>
    unfold readDigits at h
    split at h
    · next d hd => exact List.forall_mem_cons.mpr ⟨by simp [hd], ih h⟩
    · cases h

theorem hexGroup_chars {text : List Char} {g : Nat} (h : hexGroup text = some g) :
    ∀ c ∈ text, hexValue c ≠ none := by
  unfold hexGroup at h
  split at h
  · exact readDigits_chars h
  · cases h

/-- A character that is no digit stands in no group. -/
theorem notMem_of_hexGroup {text : List Char} {g : Nat} (h : hexGroup text = some g) {c : Char}
    (hc : hexValue c = none) : c ∉ text :=
  fun hmem => hexGroup_chars h c hmem hc

theorem hexGroup_none_of_mem {text : List Char} {c : Char} (hmem : c ∈ text)
    (hc : hexValue c = none) : hexGroup text = none := by
  cases hgroup : hexGroup text with
  | none => rfl
  | some g => exact absurd hmem (notMem_of_hexGroup hgroup hc)

theorem v6Text_no_zone {text : List Char} (h : '%' ∉ text) : v6Text text = groupsText text := by
  unfold v6Text
  rw [List.splitOn_eq_singleton h]

theorem sideGroups_append {front rest : List Char} {g : Nat} (hfront : hexGroup front = some g)
    (hrest : rest ≠ []) :
    sideGroups groups (front ++ ':' :: rest) = (sideGroups groups rest).map (g :: ·) := by
  have hcolon : ':' ∉ front := notMem_of_hexGroup hfront (by decide)
  have hsplit := List.splitOn_ne_nil ':' rest
  unfold sideGroups
  rw [if_neg (by simp), if_neg hrest, List.splitOn_append_cons_self_of_not_mem hcolon]
  cases hparts : rest.splitOn ':' with
  | nil => exact absurd hparts hsplit
  | cons first others =>
    simp only [groups, hfront]
    cases groups (first :: others) with
    | none => rfl
    | some gs => rfl

/-- A quad as the last part. -/
theorem sideGroups_quad {text : List Char} (hcolon : ':' ∉ text) (hdot : '.' ∈ text) :
    sideGroups groups text = (quad text).map fun a => [a / 65536, a % 65536] := by
  have hne : text ≠ [] := by
    rintro rfl
    cases hdot
  unfold sideGroups
  rw [if_neg hne, List.splitOn_eq_singleton hcolon]
  simp only [groups, hexGroup_none_of_mem hdot (by decide)]

theorem sideGroups_pair {high low : List Char} {h l : Nat} (hhigh : hexGroup high = some h)
    (hlow : hexGroup low = some l) : sideGroups groups (high ++ ':' :: low) = some [h, l] := by
  have hne : low ≠ [] := by
    rintro rfl
    cases hlow
  have hlast : sideGroups groups low = some [l] := by
    unfold sideGroups
    rw [if_neg hne, List.splitOn_eq_singleton (notMem_of_hexGroup hlow (by decide))]
    simp only [groups, hlow]
  rw [sideGroups_append hhigh hne, hlast]
  rfl

/-- What stands after the text of an embedding are the last groups, and two of them are an
IPv4 address. -/
theorem groupsText_embedding (e : Embedding) : ∃ join : List Nat → Option Nat,
    (∀ rest, rest ≠ [] → groupsText (e.text ++ rest) = (sideGroups groups rest).bind join) ∧
      ∀ high low, join [high, low] = some (e.address (high * 65536 + low)) := by
  have hempty : sideGroups (fun parts => parts.mapM hexGroup) [] = some [] := rfl
  cases e with
  | mapped =>
    refine ⟨fun gs => if gs.length + 1 ≤ 7 then
        some (ofGroups (List.replicate (8 - (gs.length + 1)) 0 ++ 65535 :: gs)) else none,
      fun rest hrest => ?_, fun high low => ?_⟩
    · have hsplit : splitDouble (Embedding.mapped.text ++ rest) =
          ([], some (['f', 'f', 'f', 'f'] ++ ':' :: rest)) := rfl
      have hfirst : hexGroup ['f', 'f', 'f', 'f'] = some 65535 := by decide
      unfold groupsText
      rw [hsplit]
      simp only [hempty, sideGroups_append hfirst hrest]
      cases sideGroups groups rest with
      | none => rfl
      | some gs => simp
    · simp [ofGroups, Embedding.address, Embedding.front]
      omega
  | compatible =>
    refine ⟨fun gs => if gs.length ≤ 7 then
        some (ofGroups (List.replicate (8 - gs.length) 0 ++ gs)) else none,
      fun rest hrest => ?_, fun high low => ?_⟩
    · have hsplit : splitDouble (Embedding.compatible.text ++ rest) = ([], some rest) := rfl
      unfold groupsText
      rw [hsplit]
      simp only [hempty]
      cases sideGroups groups rest with
      | none => rfl
      | some gs => simp
    · simp [ofGroups, Embedding.address, Embedding.front]
      omega
  | nat64 =>
    refine ⟨fun gs => if 2 + gs.length ≤ 7 then
        some (ofGroups ([100, 65435] ++ List.replicate (8 - 2 - gs.length) 0 ++ gs)) else none,
      fun rest hrest => ?_, fun high low => ?_⟩
    · have hsplit : splitDouble (Embedding.nat64.text ++ rest) =
          (['6', '4', ':', 'f', 'f', '9', 'b'], some rest) := rfl
      have hleft : sideGroups (fun parts => parts.mapM hexGroup) ['6', '4', ':', 'f', 'f', '9', 'b'] =
          some [100, 65435] := by decide +kernel
      unfold groupsText
      rw [hsplit]
      simp only [hleft]
      cases sideGroups groups rest with
      | none => rfl
      | some gs => rfl
    · simp [ofGroups, Embedding.address, Embedding.front]
      omega

theorem percent_notMem_text (e : Embedding) : '%' ∉ e.text := by
  cases e <;> decide

/-- The text of an embedding and a quad. -/
theorem v6Text_quad (e : Embedding) {text : List Char} (hcolon : ':' ∉ text) (hdot : '.' ∈ text)
    (hzone : '%' ∉ text) {n : Nat} (h : v6Text (e.text ++ text) = some n) :
    ∃ a, quad text = some a ∧ n = e.address a := by
  have hne : text ≠ [] := by
    rintro rfl
    cases hdot
  obtain ⟨join, hjoin, hpair⟩ := groupsText_embedding e
  rw [v6Text_no_zone (by simp [percent_notMem_text, hzone]), hjoin text hne,
    sideGroups_quad hcolon hdot] at h
  cases hquad : quad text with
  | none => simp [hquad] at h
  | some a =>
    simp only [hquad, Option.map_some, Option.bind_some, hpair] at h
    have hsame : a / 65536 * 65536 + a % 65536 = a := by omega
    rw [hsame] at h
    exact ⟨a, rfl, (Option.some.inj h).symm⟩

/-- The text of an embedding and two groups. -/
theorem v6Text_pair (e : Embedding) {high low : List Char} {h l : Nat}
    (hhigh : hexGroup high = some h) (hlow : hexGroup low = some l) :
    v6Text (e.text ++ (high ++ ':' :: low)) = some (e.address (h * 65536 + l)) := by
  obtain ⟨join, hjoin, hpair⟩ := groupsText_embedding e
  have hzone : '%' ∉ high ++ ':' :: low := by
    simp [notMem_of_hexGroup hhigh, notMem_of_hexGroup hlow, hexValue]
  rw [v6Text_no_zone (by simp only [List.mem_append, percent_notMem_text, hzone]; simp),
    hjoin _ (by simp), sideGroups_pair hhigh hlow]
  exact hpair h l

end IpAddress

end Effects
