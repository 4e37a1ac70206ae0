import AppPort.Authority.Context
import AppPort.Lib.IpAddress

/-!
# Webhook destinations

A destination is validated by the addresses its host resolves to, not by its text, and
delivery connects to the address that was validated. An IPv6 address that holds an IPv4
address is judged by that address, which is found in the text by two patterns.

Which IPv4 rules `BlockList.check` applies to the IPv4-mapped form of an address by itself
is left open: everything is said for both behaviours.
-/

namespace AppPort

open Effects

/-! ## Forbidden addresses -/

def BLOCKED_IPV4 : List (String × Nat) := [
  ("0.0.0.0", 8), ("10.0.0.0", 8), ("100.64.0.0", 10), ("127.0.0.0", 8), ("169.254.0.0", 16),
  ("172.16.0.0", 12), ("192.0.0.0", 24), ("192.0.2.0", 24), ("192.88.99.0", 24),
  ("192.168.0.0", 16), ("198.18.0.0", 15), ("198.51.100.0", 24), ("203.0.113.0", 24),
  ("224.0.0.0", 4), ("240.0.0.0", 4)]

def BLOCKED_IPV6 : List (String × Nat) := [
  ("::", 128), ("::1", 128), ("100::", 64), ("2001:db8::", 32), ("fc00::", 7), ("fe80::", 10),
  ("fec0::", 10), ("ff00::", 8)]

/-- `addSubnet`. -/
def subnetOf (rule : String × Nat) : Option IpAddress.Subnet :=
  (IpAddress.parse rule.1.toList).map fun network => ⟨network, rule.2⟩

/-- `blocked`. -/
def blocked : List IpAddress.Subnet := (BLOCKED_IPV4 ++ BLOCKED_IPV6).filterMap subnetOf

/-- `blocked.check`. With `mappedToo`, the IPv4 rules are also those of the IPv4-mapped form. -/
def blockedCheck (mappedToo : Bool) (address : IpAddress) : Bool :=
  blocked.any (fun subnet => subnet.contains address) ||
    match address with
    | .v4 _ => false
    | .v6 n => mappedToo && IpAddress.embedding n == some .mapped &&
      blocked.any fun subnet => subnet.contains (.v4 (n % 4294967296))

/-- `address.toLowerCase()`: a text that `isIP` accepts is an ASCII text. -/
def lowerText (address : List Char) : List Char := address.map lowerAscii

/-- `\d+\.\d+\.\d+\.\d+`. -/
def isDottedDigits (text : List Char) : Bool :=
  match text.splitOn '.' with
  | [a, b, c, d] => [a, b, c, d].all fun part =>
    !part.isEmpty && part.all fun digit => (IpAddress.decimalValue digit).isSome
  | _ => false

/-- The text, if it is of the form. -/
def dottedTail (text : List Char) : Option (List Char) :=
  if isDottedDigits text then some text else none

/-- `[0-9a-f]`. -/
def isLowerHexDigit (c : Char) : Bool := ('0' ≤ c && c ≤ '9') || ('a' ≤ c && c ≤ 'f')

/-- `[0-9a-f]{1,4}`, read by `parseInt(…, 16)`. -/
def lowerHexGroup (text : List Char) : Option Nat :=
  if text.all isLowerHexDigit then IpAddress.hexGroup text else none

/-- `([0-9a-f]{1,4}):([0-9a-f]{1,4})`. -/
def hexPair (text : List Char) : Option (Nat × Nat) :=
  match text.splitOn ':' with
  | [high, low] =>
    match lowerHexGroup high, lowerHexGroup low with
    | some high, some low => some (high, low)
    | _, _ => none
  | _ => none

/-- The fronts of the first pattern. -/
def DOTTED_FRONTS : List String := ["::ffff:", "::", "64:ff9b::"]

/-- The fronts of the second pattern. -/
def HEX_FRONTS : List String := ["::ffff:", "64:ff9b::"]

/-- `embeddedIpv4`: the dotted text of the IPv4 address in an address. -/
def embeddedIpv4 (address : List Char) : Option (List Char) :=
  match DOTTED_FRONTS.findSome? fun front =>
      (address.dropPrefix? front.toList).bind dottedTail with
  | some dotted => some dotted
  | none =>
    match HEX_FRONTS.findSome? fun front => (address.dropPrefix? front.toList).bind hexPair with
    | some (high, low) => some
      ((toString (high >>> 8)).toList ++ '.' :: ((toString (high &&& 255)).toList ++
        '.' :: ((toString (low >>> 8)).toList ++ '.' :: (toString (low &&& 255)).toList)))
    | none => none

/-- `isForbiddenAddress`, to a depth of calls. -/
def isForbiddenWithin (mappedToo : Bool) : Nat → List Char → Bool
  | 0, _ => true
  | depth + 1, address =>
    match IpAddress.parse address with
    | some (.v4 a) => blockedCheck mappedToo (.v4 a)
    | none => true
    | some (.v6 _) =>
      match embeddedIpv4 (lowerText address) with
      | some embedded => isForbiddenWithin mappedToo depth embedded
      | none =>
        match IpAddress.v6Text (lowerText address) with
        | some n => blockedCheck mappedToo (.v6 n)
        | none => false

/-- `isForbiddenAddress`. It calls itself on a dotted text, which is no IPv6 address. -/
def isForbiddenAddress (mappedToo : Bool) (address : String) : Bool :=
  isForbiddenWithin mappedToo 2 address.toList

/-! ## Destinations -/

/-- What is read of a `URL`. -/
structure URL where
  protocol : String
  username : String := ""
  password : String := ""
  hostname : String
  deriving DecidableEq, Repr

structure ResolvedAddress where
  address : String
  family : Nat
  deriving DecidableEq, Repr

/-- `WebhookDestinationPolicy`; a lookup that throws answers nothing. -/
structure WebhookDestinationPolicy where
  allowPrivateNetworks : Bool := false
  lookup : Option (String → Option (List ResolvedAddress)) := none

/-- `ValidatedDestination`, as delivery connects to it. -/
structure PinnedDestination where
  url : URL
  address : ResolvedAddress
  deriving DecidableEq, Repr

def BLOCKED_HOSTNAMES : List String := ["localhost", "metadata", "metadata.google.internal",
  "metadata.goog", "instance-data", "instance-data.ec2.internal"]

/-- `forbidden`. -/
def destinationForbidden (message : String) : JsError :=
  serviceError .invalidRequest message { reason := some "destination_forbidden" }

/-- `hostname.replace(/^\[|\]$/g, '').toLowerCase().replace(/\.$/, '')`. The host name of a
`URL` is an ASCII text. -/
def plainHostname (hostname : String) : String :=
  let chars := hostname.toList
  let opened := if chars.head? = some '[' then chars.drop 1 else chars
  let closed := if opened.getLast? = some ']' then opened.dropLast else opened
  let lowered := lowerText closed
  String.ofList (if lowered.getLast? = some '.' then lowered.dropLast else lowered)

/-- `s.endsWith(tail)`. -/
def hasSuffix (s tail : String) : Bool := tail.toList.isSuffixOf s.toList

/-- The checks of a URL, and the host they leave. -/
def destinationHost (newUrl : String → Option URL) (rawUrl : String)
    (policy : WebhookDestinationPolicy) : Except JsError (URL × String) :=
  match newUrl rawUrl with
  | none => .error (destinationForbidden "Webhook destination is not a valid URL")
  | some url =>
    if url.protocol ≠ "https:" ∧ url.protocol ≠ "http:" then
      .error (destinationForbidden "Webhook destination must use http or https")
    else if url.username ≠ "" ∨ url.password ≠ "" then
      .error (destinationForbidden "Webhook destination must not embed credentials")
    else if plainHostname url.hostname = "" then
      .error (destinationForbidden "Webhook destination host is required")
    else if policy.allowPrivateNetworks = false ∧ (plainHostname url.hostname ∈ BLOCKED_HOSTNAMES ∨
        hasSuffix (plainHostname url.hostname) ".localhost" = true ∨
        hasSuffix (plainHostname url.hostname) ".internal" = true) then
      .error (destinationForbidden "Webhook destination host is not permitted")
    else .ok (url, plainHostname url.hostname)

/-- `resolve`. -/
def resolveHost (dnsLookup : String → Option (List ResolvedAddress)) (hostname : String)
    (policy : WebhookDestinationPolicy) : Except JsError (List ResolvedAddress) :=
  match policy.lookup.getD dnsLookup hostname with
  | some addresses => .ok addresses
  | none => .error (destinationForbidden "Webhook destination did not resolve")

/-- The addresses of a host: itself, or those it resolves to. -/
def destinationAddresses (dnsLookup : String → Option (List ResolvedAddress)) (hostname : String)
    (policy : WebhookDestinationPolicy) : Except JsError (List ResolvedAddress) :=
  match IpAddress.parse hostname.toList with
  | some (.v4 _) => .ok [⟨hostname, 4⟩]
  | some (.v6 _) => .ok [⟨hostname, 6⟩]
  | none => resolveHost dnsLookup hostname policy

/-- `validateDestination`. -/
def validateDestination (mappedToo : Bool) (newUrl : String → Option URL)
    (dnsLookup : String → Option (List ResolvedAddress)) (rawUrl : String)
    (policy : WebhookDestinationPolicy) : Except JsError PinnedDestination := do
  let (url, hostname) ← destinationHost newUrl rawUrl policy
  let addresses ← destinationAddresses dnsLookup hostname policy
  match addresses with
  | [] => .error (destinationForbidden "Webhook destination did not resolve")
  | first :: _ =>
    if policy.allowPrivateNetworks = false ∧
        addresses.any (fun entry => isForbiddenAddress mappedToo entry.address) = true then
      .error (destinationForbidden ("Webhook destination resolves to a private, loopback, " ++
        "link-local, or metadata address"))
    else .ok ⟨url, first⟩

/-! ## What the patterns find -/

/-- A statement about the upper-case letters. -/
theorem forall_upper {P : Char → Prop} (h : ∀ n < 26, P (Char.ofNat (65 + n))) {c : Char}
    (hlow : 'A' ≤ c) (hhigh : c ≤ 'Z') : P c := by
  have hle : 65 ≤ c.toNat := IpAddress.toNat_le hlow
  have hge : c.toNat ≤ 90 := IpAddress.toNat_le hhigh
  have hat := h (c.toNat - 65) (by omega)
  rwa [show 65 + (c.toNat - 65) = c.toNat by omega, Char.ofNat_toNat] at hat

/-- What holds of the lower case of an upper-case letter, and of a character that stays. -/
theorem lowerAscii_cases {P : Char → Char → Prop}
    (hupper : ∀ n < 26, P (Char.ofNat (65 + n)) (Char.ofNat ((Char.ofNat (65 + n)).toNat + 32)))
    (hsame : ∀ c, P c c) (c : Char) : P c (lowerAscii c) := by
  unfold lowerAscii
  split
  · next h => exact forall_upper (P := fun c => P c (Char.ofNat (c.toNat + 32))) hupper h.1 h.2
  · exact hsame c

theorem lowerAscii_harmless : IpAddress.Harmless lowerAscii where
  hex := lowerAscii_cases (P := fun c l => IpAddress.hexValue l = IpAddress.hexValue c)
    (by decide) fun _ => rfl
  decimal := lowerAscii_cases (P := fun c l => IpAddress.decimalValue l = IpAddress.decimalValue c)
    (by decide) fun _ => rfl
  zero := lowerAscii_cases (P := fun c l => l = '0' ↔ c = '0') (by decide) fun _ => Iff.rfl
  dot := lowerAscii_cases (P := fun c l => l = '.' ↔ c = '.') (by decide) fun _ => Iff.rfl
  colon := lowerAscii_cases (P := fun c l => l = ':' ↔ c = ':') (by decide) fun _ => Iff.rfl
  percent := lowerAscii_cases (P := fun c l => l = '%' ↔ c = '%') (by decide) fun _ => Iff.rfl
  zone := lowerAscii_cases (P := fun c l => IpAddress.isZoneChar l = IpAddress.isZoneChar c)
    (by decide) fun _ => rfl

/-- The hexadecimal digits of a lower-case text are lower-case. -/
theorem isLowerHexDigit_lowerAscii {c : Char} (h : IpAddress.hexValue (lowerAscii c) ≠ none) :
    isLowerHexDigit (lowerAscii c) = true := by
  revert h
  unfold lowerAscii
  split
  · next hupper =>
    exact forall_upper (P := fun c => IpAddress.hexValue (Char.ofNat (c.toNat + 32)) ≠ none →
      isLowerHexDigit (Char.ofNat (c.toNat + 32)) = true) (by decide) hupper.1 hupper.2
  · next hlow =>
    intro h
    unfold IpAddress.hexValue at h
    split at h
    · next hdigit => simp [isLowerHexDigit, hdigit]
    split at h
    · next hletter => simp [isLowerHexDigit, hletter]
    split at h
    · next hcapital =>
      have hle : c.toNat ≤ 'F'.toNat := IpAddress.toNat_le hcapital.2
      have hbelow : 'F'.toNat ≤ 'Z'.toNat := by decide
      exact absurd ⟨hcapital.1, Nat.le_trans hle hbelow⟩ hlow
    · exact absurd rfl h

theorem lowerHexGroup_eq {text part : List Char} (hpart : ∀ c ∈ part, c ∈ lowerText text) :
    lowerHexGroup part = IpAddress.hexGroup part := by
  unfold lowerHexGroup
  split
  · rfl
  · next hall =>
    cases hgroup : IpAddress.hexGroup part with
    | none => rfl
    | some g =>
      refine absurd (List.all_eq_true.mpr fun c hc => ?_) hall
      obtain ⟨d, -, rfl⟩ := List.mem_map.mp (hpart c hc)
      exact isLowerHexDigit_lowerAscii (IpAddress.hexGroup_chars hgroup _ hc)

theorem dropPrefix?_iff {text front tail : List Char} :
    text.dropPrefix? front = some tail ↔ text = front ++ tail := by
  rw [List.dropPrefix?_eq_some_iff]
  constructor
  · rintro ⟨first, rfl, hfirst⟩
    rw [eq_of_beq hfirst]
  · rintro rfl
    exact ⟨front, rfl, beq_self_eq_true front⟩

/-- What a pattern found: one of its fronts, and a tail it reads. -/
theorem front_of_findSome {β : Type} {fronts : List String} {read : List Char → Option β}
    {text : List Char} {b : β}
    (h : (fronts.findSome? fun front => (text.dropPrefix? front.toList).bind read) = some b) :
    ∃ front ∈ fronts, ∃ tail, text = front.toList ++ tail ∧ read tail = some b := by
  obtain ⟨front, hfront, hread⟩ := List.exists_of_findSome?_eq_some h
  obtain ⟨tail, htail, hread⟩ := Option.bind_eq_some_iff.mp hread
  exact ⟨front, hfront, tail, dropPrefix?_iff.mp htail, hread⟩

/-- A front with a tail the pattern reads is found. -/
theorem findSome_of_front {β : Type} {fronts : List String} {read : List Char → Option β}
    {front : String} {tail : List Char} (hfront : front ∈ fronts) (hread : read tail ≠ none) :
    (fronts.findSome? fun f => ((front.toList ++ tail).dropPrefix? f.toList).bind read) ≠ none := by
  intro hnone
  have hread' := List.findSome?_eq_none_iff.mp hnone front hfront
  rw [dropPrefix?_iff.mpr rfl] at hread'
  exact hread hread'

/-- The embeddings the second pattern knows. -/
def hasHexFront : IpAddress.Embedding → Bool
  | .mapped | .nat64 => true
  | .compatible => false

theorem dotted_front {front : String} (h : front ∈ DOTTED_FRONTS) :
    ∃ e : IpAddress.Embedding, front.toList = e.text := by
  simp only [DOTTED_FRONTS, List.mem_cons, List.not_mem_nil, or_false] at h
  rcases h with rfl | rfl | rfl
  · exact ⟨.mapped, by decide⟩
  · exact ⟨.compatible, by decide⟩
  · exact ⟨.nat64, by decide⟩

theorem hex_front {front : String} (h : front ∈ HEX_FRONTS) :
    ∃ e : IpAddress.Embedding, hasHexFront e = true ∧ front.toList = e.text := by
  simp only [HEX_FRONTS, List.mem_cons, List.not_mem_nil, or_false] at h
  rcases h with rfl | rfl
  · exact ⟨.mapped, rfl, by decide⟩
  · exact ⟨.nat64, rfl, by decide⟩

theorem front_dotted (e : IpAddress.Embedding) : ∃ front ∈ DOTTED_FRONTS, front.toList = e.text := by
  cases e with
  | mapped => exact ⟨"::ffff:", by decide, by decide⟩
  | compatible => exact ⟨"::", by decide, by decide⟩
  | nat64 => exact ⟨"64:ff9b::", by decide, by decide⟩

theorem front_hex {e : IpAddress.Embedding} (h : hasHexFront e = true) :
    ∃ front ∈ HEX_FRONTS, front.toList = e.text := by
  cases e with
  | mapped => exact ⟨"::ffff:", by decide, by decide⟩
  | compatible => cases h
  | nat64 => exact ⟨"64:ff9b::", by decide, by decide⟩

/-- The parts of a dotted text, and its characters. -/
theorem isDottedDigits_chars {text : List Char} (h : isDottedDigits text = true) :
    '.' ∈ text ∧ ∀ c ∈ text, c = '.' ∨ IpAddress.decimalValue c ≠ none := by
  unfold isDottedDigits at h
  split at h
  · next a b c d hparts =>
    have hjoin : ['.'].intercalate (text.splitOn '.') = text := List.intercalate_splitOn '.'
    rw [hparts] at hjoin
    have htext : text = a ++ '.' :: (b ++ '.' :: (c ++ '.' :: d)) := by
      rw [← hjoin]
      simp [List.intercalate, List.intersperse]
    simp only [List.all_cons, List.all_nil, Bool.and_true, Bool.and_eq_true] at h
    obtain ⟨⟨-, ha⟩, ⟨-, hb⟩, ⟨-, hc⟩, -, hd⟩ := h
    have hdigit : ∀ {part : List Char}, (part.all fun digit =>
        (IpAddress.decimalValue digit).isSome) = true → ∀ x ∈ part,
        IpAddress.decimalValue x ≠ none := by
      intro part hall x hx
      have hsome := List.all_eq_true.mp hall x hx
      exact Option.isSome_iff_ne_none.mp hsome
    refine ⟨by simp [htext], fun x hx => ?_⟩
    rw [htext] at hx
    simp only [List.mem_append, List.mem_cons] at hx
    rcases hx with hx | rfl | hx | rfl | hx | rfl | hx
    · exact .inr (hdigit ha x hx)
    · exact .inl rfl
    · exact .inr (hdigit hb x hx)
    · exact .inl rfl
    · exact .inr (hdigit hc x hx)
    · exact .inl rfl
    · exact .inr (hdigit hd x hx)
  · cases h

theorem notMem_of_isDottedDigits {text : List Char} (h : isDottedDigits text = true) {c : Char}
    (hdot : c ≠ '.') (hdigit : IpAddress.decimalValue c = none) : c ∉ text := by
  intro hmem
  rcases (isDottedDigits_chars h).2 c hmem with rfl | hvalue
  · exact hdot rfl
  · exact hvalue hdigit

/-- An octet is a part of the form. -/
theorem digits_of_octet {part : List Char} {n : Nat} (h : IpAddress.octet part = some n) :
    (!part.isEmpty && part.all fun digit => (IpAddress.decimalValue digit).isSome) = true := by
  unfold IpAddress.octet at h
  split at h
  · next hlength =>
    have hread := (Option.filter_eq_some_iff.mp h).1
    rw [Bool.and_eq_true]
    constructor
    · cases part with
      | nil => simp at hlength
      | cons c rest => rfl
    · rw [List.all_eq_true]
      intro digit hdigit
      exact Option.isSome_iff_ne_none.mpr (IpAddress.readDigits_chars hread digit hdigit)
  · cases h

/-- A quad is of the form. -/
theorem isDottedDigits_of_quad {text : List Char} (h : IpAddress.quad text ≠ none) :
    isDottedDigits text = true := by
  unfold IpAddress.quad at h
  split at h
  · next parts =>
    obtain ⟨hlength, hall⟩ := IpAddress.mapM_octet_some parts
    unfold isDottedDigits
    match hparts : text.splitOn '.', hlength with
    | [a, b, c, d], _ =>
      have hdigits : ∀ part ∈ text.splitOn '.', (!part.isEmpty &&
          part.all fun digit => (IpAddress.decimalValue digit).isSome) = true := by
        intro part hpart
        obtain ⟨n, hn⟩ := hall part hpart
        exact digits_of_octet hn
      rw [hparts] at hdigits
      exact List.all_eq_true.mpr hdigits
  · exact absurd rfl h

/-! ## What is read -/

/-- The lower-case texts that the patterns recognise. -/
inductive Recognized : List Char → Prop where
  | quad (e : IpAddress.Embedding) {tail : List Char} (h : IpAddress.quad tail ≠ none) :
      Recognized (e.text ++ tail)
  | groups {e : IpAddress.Embedding} (he : hasHexFront e = true) {high low : List Char}
      (hhigh : IpAddress.hexGroup high ≠ none) (hlow : IpAddress.hexGroup low ≠ none) :
      Recognized (e.text ++ (high ++ ':' :: low))

theorem mem_of_hexPair {text : List Char} {pair : Nat × Nat} (h : hexPair text = some pair) :
    ∃ high low, text = high ++ ':' :: low ∧ lowerHexGroup high = some pair.1 ∧
      lowerHexGroup low = some pair.2 := by
  unfold hexPair at h
  split at h
  · next high low hparts =>
    have hjoin : [':'].intercalate (text.splitOn ':') = text := List.intercalate_splitOn ':'
    rw [hparts] at hjoin
    refine ⟨high, low, by simp [← hjoin, List.intercalate, List.intersperse], ?_⟩
    split at h
    · next hhigh hlow =>
      obtain rfl := Option.some.inj h
      exact ⟨hhigh, hlow⟩
    · cases h
  · cases h

theorem hexGroup_of_lower {text : List Char} {g : Nat} (h : lowerHexGroup text = some g) :
    IpAddress.hexGroup text = some g := by
  unfold lowerHexGroup at h
  split at h
  · exact h
  · cases h

/-- The four parts the code writes are those of the quad. -/
theorem quad_of_groups {high low : Nat} (hhigh : high < 65536) (hlow : low < 65536) :
    IpAddress.quad ((toString (high >>> 8)).toList ++ '.' :: ((toString (high &&& 255)).toList ++
      '.' :: ((toString (low >>> 8)).toList ++ '.' :: (toString (low &&& 255)).toList))) =
      some (high * 65536 + low) := by
  have hmask : ∀ n : Nat, n &&& 255 = n % 256 := fun n => Nat.and_two_pow_sub_one_eq_mod n 8
  have hshift : ∀ n : Nat, n >>> 8 = n / 256 := fun n => Nat.shiftRight_eq_div_pow n 8
  have hquad := @IpAddress.quad_digits (high / 256) (high % 256) (low / 256) (low % 256)
    (by omega) (by omega) (by omega) (by omega)
  have hvalue : ((high / 256 * 256 + high % 256) * 256 + low / 256) * 256 + low % 256 =
      high * 65536 + low := by omega
  rw [hvalue] at hquad
  simp only [hmask, hshift]
  exact hquad

/-- What the patterns find is the quad of the IPv4 address in the address. -/
theorem embeddedIpv4_sound {text dotted : List Char} {n : Nat}
    (hfound : embeddedIpv4 text = some dotted) (hvalue : IpAddress.v6Text text = some n) :
    Recognized text ∧
      ∃ a, IpAddress.quad dotted = some a ∧ IpAddress.embedded n = some a := by
  unfold embeddedIpv4 at hfound
  split at hfound
  · next found hdotted =>
    obtain rfl := Option.some.inj hfound
    obtain ⟨front, hfront, tail, rfl, htail⟩ := front_of_findSome hdotted
    obtain ⟨e, he⟩ := dotted_front hfront
    unfold dottedTail at htail
    split at htail
    · next hform =>
      obtain rfl := Option.some.inj htail
      rw [he] at hvalue ⊢
      obtain ⟨a, ha, rfl⟩ := IpAddress.v6Text_quad e
        (notMem_of_isDottedDigits hform (by decide) (by decide)) (isDottedDigits_chars hform).1
        (notMem_of_isDottedDigits hform (by decide) (by decide)) hvalue
      exact ⟨.quad e (by simp [ha]), a, ha, IpAddress.embedded_address e (IpAddress.quad_lt ha)⟩
    · cases htail
  · split at hfound
    · next high low hpair =>
      obtain rfl := Option.some.inj hfound
      obtain ⟨front, hfront, tail, rfl, htail⟩ := front_of_findSome hpair
      obtain ⟨e, hhex, he⟩ := hex_front hfront
      obtain ⟨highText, lowText, rfl, hhigh, hlow⟩ := mem_of_hexPair htail
      have hhigh' := hexGroup_of_lower hhigh
      have hlow' := hexGroup_of_lower hlow
      have hhighlt := IpAddress.hexGroup_lt hhigh'
      have hlowlt := IpAddress.hexGroup_lt hlow'
      rw [he, IpAddress.v6Text_pair e hhigh' hlow'] at hvalue
      obtain rfl := Option.some.inj hvalue
      rw [he]
      exact ⟨.groups hhex (by simp [hhigh']) (by simp [hlow']), _, quad_of_groups hhighlt hlowlt,
        IpAddress.embedded_address e (by omega)⟩
    · cases hfound

/-- A recognised text is found. -/
theorem embeddedIpv4_complete {text : List Char} (h : Recognized (lowerText text)) :
    embeddedIpv4 (lowerText text) ≠ none := by
  have hmem : ∀ {front : List Char} {tail : List Char}, lowerText text = front ++ tail →
      ∀ c ∈ tail, c ∈ lowerText text := by
    intro front tail htext c hc
    rw [htext]
    exact List.mem_append_right _ hc
  intro hnone
  unfold embeddedIpv4 at hnone
  split at hnone
  · cases hnone
  · next hdotted =>
    split at hnone
    · cases hnone
    · next hhex =>
      generalize hlower : lowerText text = lowered at h
      cases h with
      | @quad e tail htail =>
        obtain ⟨front, hfront, he⟩ := front_dotted e
        rw [hlower, ← he] at hdotted
        exact findSome_of_front hfront
          (by simp [dottedTail, isDottedDigits_of_quad htail]) hdotted
      | @groups e he high low hhigh hlow =>
        obtain ⟨front, hfront, htext⟩ := front_hex he
        have hparts := hmem hlower
        have hhigh' : lowerHexGroup high ≠ none := by
          rw [lowerHexGroup_eq fun c hc => hparts c (List.mem_append_left _ hc)]
          exact hhigh
        have hlow' : lowerHexGroup low ≠ none := by
          rw [lowerHexGroup_eq fun c hc =>
            hparts c (List.mem_append_right _ (List.mem_cons_of_mem _ hc))]
          exact hlow
        rw [hlower, ← htext] at hhex
        refine findSome_of_front hfront ?_ hhex
        obtain ⟨h, hh⟩ := Option.ne_none_iff_exists'.mp hhigh'
        obtain ⟨l, hl⟩ := Option.ne_none_iff_exists'.mp hlow'
        have hcolon : ':' ∉ high :=
          IpAddress.notMem_of_hexGroup (hexGroup_of_lower hh) (by decide)
        have hcolon' : ':' ∉ low :=
          IpAddress.notMem_of_hexGroup (hexGroup_of_lower hl) (by decide)
        unfold hexPair
        rw [List.splitOn_append_cons_self_of_not_mem hcolon, List.splitOn_eq_singleton hcolon']
        simp [hh, hl]

/-! ## The verdict -/

/-- A text without a colon is no IPv6 address. -/
theorem v6Text_no_colon {text : List Char} (hcolon : ':' ∉ text) (hzone : '%' ∉ text) :
    IpAddress.v6Text text = none := by
  have hwhole : ∀ rest : List Char, ':' ∉ rest → IpAddress.splitDouble rest = (rest, none) := by
    intro rest hrest
    induction rest with
    | nil => rfl
    | cons c others ih =>
      rw [List.mem_cons, not_or] at hrest
      obtain ⟨hc, hothers⟩ := hrest
      rw [IpAddress.splitDouble.eq_2 _ _ fun _ heq => absurd heq.symm hc, ih hothers]
  rw [IpAddress.v6Text_no_zone hzone]
  unfold IpAddress.groupsText
  rw [hwhole text hcolon]
  simp only [List.splitOn_eq_singleton hcolon, IpAddress.groups]
  split
  · rfl
  · cases IpAddress.quad text with
    | none => rfl
    | some a => rfl

/-- The text found is no IPv6 address. -/
theorem parse_embeddedIpv4 {text dotted : List Char} (h : embeddedIpv4 text = some dotted) (n : Nat) :
    IpAddress.parse dotted ≠ some (.v6 n) := by
  intro hparse
  unfold IpAddress.parse at hparse
  split at hparse
  · cases Option.some.inj hparse
  · next hquad =>
    unfold embeddedIpv4 at h
    split at h
    · next found hdotted =>
      obtain rfl := Option.some.inj h
      obtain ⟨front, -, tail, -, htail⟩ := front_of_findSome hdotted
      unfold dottedTail at htail
      split at htail
      · next hform =>
        obtain rfl := Option.some.inj htail
        rw [v6Text_no_colon (notMem_of_isDottedDigits hform (by decide) (by decide))
          (notMem_of_isDottedDigits hform (by decide) (by decide))] at hparse
        cases hparse
      · cases htail
    · split at h
      · next high low hpair =>
        obtain rfl := Option.some.inj h
        obtain ⟨front, -, tail, -, htail⟩ := front_of_findSome hpair
        obtain ⟨_, _, -, hhigh, hlow⟩ := mem_of_hexPair htail
        rw [quad_of_groups (IpAddress.hexGroup_lt (hexGroup_of_lower hhigh))
          (IpAddress.hexGroup_lt (hexGroup_of_lower hlow))] at hquad
        cases hquad
      · cases h

/-- `isForbiddenAddress`, as it is written: one call deep is deep enough. -/
theorem isForbiddenAddress_eq (mappedToo : Bool) (address : String) :
    isForbiddenAddress mappedToo address =
      match IpAddress.parse address.toList with
      | some (.v4 a) => blockedCheck mappedToo (.v4 a)
      | none => true
      | some (.v6 _) =>
        match embeddedIpv4 (lowerText address.toList) with
        | some embedded => isForbiddenAddress mappedToo (String.ofList embedded)
        | none =>
          match IpAddress.v6Text (lowerText address.toList) with
          | some n => blockedCheck mappedToo (.v6 n)
          | none => false := by
  unfold isForbiddenAddress
  rw [isForbiddenWithin]
  cases IpAddress.parse address.toList with
  | none => rfl
  | some value =>
    cases value with
    | v4 a => rfl
    | v6 n =>
      cases hfound : embeddedIpv4 (lowerText address.toList) with
      | none => rfl
      | some dotted =>
        simp only [String.toList_ofList, isForbiddenWithin]
        cases hparse : IpAddress.parse dotted with
        | none => rfl
        | some inner =>
          cases inner with
          | v4 a => rfl
          | v6 m => exact absurd hparse (parse_embeddedIpv4 hfound m)

theorem blocked_eq : blocked = [
    ⟨.v4 0x00000000, 8⟩, ⟨.v4 0x0a000000, 8⟩, ⟨.v4 0x64400000, 10⟩, ⟨.v4 0x7f000000, 8⟩,
    ⟨.v4 0xa9fe0000, 16⟩, ⟨.v4 0xac100000, 12⟩, ⟨.v4 0xc0000000, 24⟩, ⟨.v4 0xc0000200, 24⟩,
    ⟨.v4 0xc0586300, 24⟩, ⟨.v4 0xc0a80000, 16⟩, ⟨.v4 0xc6120000, 15⟩, ⟨.v4 0xc6336400, 24⟩,
    ⟨.v4 0xcb007100, 24⟩, ⟨.v4 0xe0000000, 4⟩, ⟨.v4 0xf0000000, 4⟩, ⟨.v6 0, 128⟩, ⟨.v6 1, 128⟩,
    ⟨.v6 0x01000000000000000000000000000000, 64⟩, ⟨.v6 0x20010db8000000000000000000000000, 32⟩,
    ⟨.v6 0xfc000000000000000000000000000000, 7⟩, ⟨.v6 0xfe800000000000000000000000000000, 10⟩,
    ⟨.v6 0xfec00000000000000000000000000000, 10⟩,
    ⟨.v6 0xff000000000000000000000000000000, 8⟩] := by
  decide +kernel

/-- The IPv6 rules an address with an IPv4 address in it can match: `::` and `::1`. -/
theorem blocked_address (e : IpAddress.Embedding) {a : Nat} (ha : a < 4294967296) :
    (blocked.any fun subnet => subnet.contains (.v6 (e.address a))) = true ↔
      e = .compatible ∧ a ≤ 1 := by
  rw [blocked_eq]
  cases e with
  | mapped =>
    simp [IpAddress.Subnet.contains, IpAddress.Embedding.address, IpAddress.Embedding.front]
    omega
  | compatible =>
    simp [IpAddress.Subnet.contains, IpAddress.Embedding.address, IpAddress.Embedding.front]
    omega
  | nat64 =>
    simp [IpAddress.Subnet.contains, IpAddress.Embedding.address, IpAddress.Embedding.front]
    omega

theorem embedding_address (e : IpAddress.Embedding) {a : Nat} (h : a < 4294967296) :
    IpAddress.embedding (e.address a) = some e := by
  have hfront : e.address a / 4294967296 = e.front := by
    unfold IpAddress.Embedding.address
    omega
  unfold IpAddress.embedding
  rw [hfront]
  cases e <;> rfl

/-- What the IPv6 rules alone say of an address with an IPv4 address in it. -/
theorem blockedCheck_address (mappedToo : Bool) (e : IpAddress.Embedding) {a : Nat}
    (ha : a < 4294967296) : blockedCheck mappedToo (.v6 (e.address a)) = true ↔
      (e = .compatible ∧ a ≤ 1) ∨
        (mappedToo = true ∧ e = .mapped ∧ blockedCheck mappedToo (.v4 a) = true) := by
  have hrest : e.address a % 4294967296 = a := by
    unfold IpAddress.Embedding.address
    omega
  unfold blockedCheck
  rw [Bool.or_eq_true, blocked_address e ha]
  simp only [embedding_address e ha, hrest, Bool.and_eq_true, Bool.or_false, beq_iff_eq,
    Option.some.injEq, and_assoc]

/-- Every rule for `::` and `::1` is one for the IPv4 address they hold. -/
theorem blockedCheck_small (mappedToo : Bool) {a : Nat} (ha : a ≤ 1) :
    blockedCheck mappedToo (.v4 a) = true := by
  unfold blockedCheck
  rw [blocked_eq]
  have hsmall : a / 2 ^ (32 - 8) = 0 := by
    have hpow : (2 : Nat) ^ (32 - 8) = 16777216 := by decide
    omega
  simp [IpAddress.Subnet.contains]
  omega

/-- What the verdict on an address should be: that on the IPv4 address in it, if there is
one. -/
def valueForbidden (mappedToo : Bool) : IpAddress → Bool
  | .v4 a => blockedCheck mappedToo (.v4 a)
  | .v6 n =>
    match IpAddress.embedded n with
    | some a => blockedCheck mappedToo (.v4 a)
    | none => blockedCheck mappedToo (.v6 n)

/-- A text of an address that holds a forbidden IPv4 address, in a spelling the patterns do
not recognise, where no IPv6 rule forbids the address as well. -/
def Misread (mappedToo : Bool) (text : String) : Prop :=
  ∃ e a, IpAddress.parse text.toList = some (.v6 (IpAddress.Embedding.address e a)) ∧
    a < 4294967296 ∧ blockedCheck mappedToo (.v4 a) = true ∧
    ¬ (e = .compatible ∧ a ≤ 1) ∧ ¬ (mappedToo = true ∧ e = .mapped) ∧
    ¬ Recognized (lowerText text.toList)

theorem v6Text_of_parse {text : List Char} {n : Nat}
    (h : IpAddress.parse text = some (.v6 n)) : IpAddress.v6Text text = some n := by
  unfold IpAddress.parse at h
  split at h
  · cases Option.some.inj h
  · obtain ⟨m, hm, hsame⟩ := Option.map_eq_some_iff.mp h
    cases hsame
    exact hm

theorem parse_of_quad {text : List Char} {a : Nat} (h : IpAddress.quad text = some a) :
    IpAddress.parse text = some (.v4 a) := by
  unfold IpAddress.parse
  rw [h]

/-- The verdict on a text is right unless the text is misread. -/
theorem isForbiddenAddress_iff (mappedToo : Bool) {text : String} {address : IpAddress}
    (h : IpAddress.parse text.toList = some address) :
    isForbiddenAddress mappedToo text = valueForbidden mappedToo address ↔
      ¬ Misread mappedToo text := by
  have hmisread : Misread mappedToo text → ∃ e a, address = .v6 (IpAddress.Embedding.address e a) ∧
      a < 4294967296 ∧ blockedCheck mappedToo (.v4 a) = true ∧
      ¬ (e = .compatible ∧ a ≤ 1) ∧ ¬ (mappedToo = true ∧ e = .mapped) ∧
      ¬ Recognized (lowerText text.toList) := by
    rintro ⟨e, a, hparse, hrest⟩
    exact ⟨e, a, Option.some.inj (h.symm.trans hparse), hrest⟩
  rw [isForbiddenAddress_eq, h]
  cases address with
  | v4 a =>
    refine ⟨fun _ hbad => ?_, fun _ => rfl⟩
    obtain ⟨e, a, hvalue, -⟩ := hmisread hbad
    cases hvalue
  | v6 n =>
    have hvalue : IpAddress.v6Text (lowerText text.toList) = some n := by
      unfold lowerText
      rw [IpAddress.v6Text_map lowerAscii_harmless]
      exact v6Text_of_parse h
    cases hfound : embeddedIpv4 (lowerText text.toList) with
    | some dotted =>
      obtain ⟨hrecognized, a, hquad, hembedded⟩ := embeddedIpv4_sound hfound hvalue
      refine ⟨fun _ hbad => ?_, fun _ => ?_⟩
      · obtain ⟨_, _, -, -, -, -, -, hnot⟩ := hmisread hbad
        exact hnot hrecognized
      · show isForbiddenAddress mappedToo (String.ofList dotted) = _
        rw [isForbiddenAddress_eq, String.toList_ofList, parse_of_quad hquad]
        simp only [valueForbidden, hembedded]
    | none =>
      have hunknown : ¬ Recognized (lowerText text.toList) :=
        fun hrecognized => embeddedIpv4_complete hrecognized hfound
      simp only [hvalue, valueForbidden]
      cases hembedded : IpAddress.embedded n with
      | none =>
        refine ⟨fun _ hbad => ?_, fun _ => rfl⟩
        obtain ⟨e, a, hsame, ha, -⟩ := hmisread hbad
        cases hsame
        rw [IpAddress.embedded_address e ha] at hembedded
        cases hembedded
      | some a =>
        obtain ⟨e, rfl, ha⟩ := IpAddress.address_of_embedded hembedded
        show blockedCheck mappedToo (.v6 (e.address a)) = blockedCheck mappedToo (.v4 a) ↔ _
        constructor
        · intro hright hbad
          obtain ⟨e', a', hsame, ha', hforbidden, hsmall, hmapped, -⟩ := hmisread hbad
          have haddress : e'.address a' = e.address a := (IpAddress.v6.inj hsame).symm
          have he : some e' = some e := by
            rw [← embedding_address e' ha', ← embedding_address e ha, haddress]
          have heq : some a' = some a := by
            rw [← IpAddress.embedded_address e' ha', ← IpAddress.embedded_address e ha, haddress]
          cases he
          cases heq
          rw [hforbidden, blockedCheck_address mappedToo e ha] at hright
          rcases hright with hcompatible | ⟨htoo, hmap, -⟩
          · exact hsmall hcompatible
          · exact hmapped ⟨htoo, hmap⟩
        · intro hfine
          rw [Bool.eq_iff_iff, blockedCheck_address mappedToo e ha]
          constructor
          · rintro (⟨-, hsmall⟩ | ⟨-, -, hforbidden⟩)
            · exact blockedCheck_small mappedToo hsmall
            · exact hforbidden
          · intro hforbidden
            by_contra hneither
            rw [not_or] at hneither
            exact hfine ⟨e, a, h, ha, hforbidden, hneither.1,
              fun hmapped => hneither.2 ⟨hmapped.1, hmapped.2, hforbidden⟩, hunknown⟩

/-- The dotted text of an IPv4 address is judged by its value. -/
theorem isForbiddenAddress_quadText (mappedToo : Bool) {a : Nat} (ha : a < 4294967296) :
    isForbiddenAddress mappedToo (String.ofList (IpAddress.quadText a)) =
      blockedCheck mappedToo (.v4 a) := by
  rw [isForbiddenAddress_eq, String.toList_ofList, parse_of_quad (IpAddress.quad_quadText ha)]

/-! ## Destinations that are accepted -/

/-- What an accepted destination was checked for. -/
theorem validateDestination_ok {mappedToo : Bool} {newUrl : String → Option URL}
    {dnsLookup : String → Option (List ResolvedAddress)} {rawUrl : String}
    {policy : WebhookDestinationPolicy} {destination : PinnedDestination}
    (h : validateDestination mappedToo newUrl dnsLookup rawUrl policy = .ok destination)
    (hprivate : policy.allowPrivateNetworks = false) :
    ∃ hostname addresses,
      destinationHost newUrl rawUrl policy = .ok (destination.url, hostname) ∧
      destinationAddresses dnsLookup hostname policy = .ok addresses ∧
      (∀ entry ∈ addresses, isForbiddenAddress mappedToo entry.address = false) ∧
      destination.address ∈ addresses := by
  obtain ⟨⟨url, hostname⟩, hhost, h⟩ := bind_eq_ok h
  obtain ⟨addresses, haddresses, h⟩ := bind_eq_ok h
  split at h
  · cases h
  · next first rest =>
    split at h
    · cases h
    · next hpublic =>
      obtain rfl := Except.ok.inj h
      refine ⟨hostname, first :: rest, hhost, haddresses, fun entry hentry => ?_, by simp⟩
      rw [← Bool.not_eq_true]
      intro hforbidden
      exact hpublic ⟨hprivate, List.any_eq_true.mpr ⟨entry, hentry, hforbidden⟩⟩

/-- An address with an IPv4 address in it gets the verdict of that address exactly when its
text is not misread, and two texts of one address get the same verdict exactly when both
or neither are misread; a destination is accepted only when no address it resolves to is
forbidden, and delivery is pinned to one of them. -/
theorem verdict_is_of_the_value (mappedToo : Bool) :
    (∀ (text : String) n a, IpAddress.parse text.toList = some (.v6 n) →
      IpAddress.embedded n = some a →
      (isForbiddenAddress mappedToo text =
          isForbiddenAddress mappedToo (String.ofList (IpAddress.quadText a)) ↔
        ¬ Misread mappedToo text)) ∧
    (∀ (text text' : String) address, IpAddress.parse text.toList = some address →
      IpAddress.parse text'.toList = some address →
      (isForbiddenAddress mappedToo text = isForbiddenAddress mappedToo text' ↔
        (Misread mappedToo text ↔ Misread mappedToo text'))) ∧
    ∀ newUrl dnsLookup rawUrl policy destination,
      validateDestination mappedToo newUrl dnsLookup rawUrl policy = .ok destination →
      policy.allowPrivateNetworks = false → ∃ hostname addresses,
        destinationHost newUrl rawUrl policy = .ok (destination.url, hostname) ∧
        destinationAddresses dnsLookup hostname policy = .ok addresses ∧
        (∀ entry ∈ addresses, isForbiddenAddress mappedToo entry.address = false) ∧
        destination.address ∈ addresses := by
  refine ⟨fun text n a htext hembedded => ?_, fun text text' address htext htext' => ?_,
    fun newUrl dnsLookup rawUrl policy destination h hprivate =>
      validateDestination_ok h hprivate⟩
  · obtain ⟨e, rfl, ha⟩ := IpAddress.address_of_embedded hembedded
    rw [isForbiddenAddress_quadText mappedToo ha, ← isForbiddenAddress_iff mappedToo htext]
    simp only [valueForbidden, hembedded]
  · have hright := isForbiddenAddress_iff mappedToo htext
    have hright' := isForbiddenAddress_iff mappedToo htext'
    by_cases hbad : Misread mappedToo text
    · by_cases hbad' : Misread mappedToo text'
      · have hwrong : isForbiddenAddress mappedToo text ≠ valueForbidden mappedToo address :=
          fun h => hright.mp h hbad
        have hwrong' : isForbiddenAddress mappedToo text' ≠ valueForbidden mappedToo address :=
          fun h => hright'.mp h hbad'
        have hsame : isForbiddenAddress mappedToo text = isForbiddenAddress mappedToo text' :=
          (Bool.eq_not_iff.mpr hwrong).trans (Bool.eq_not_iff.mpr hwrong').symm
        simp [hbad, hbad', hsame]
      · have hvalue := hright'.mpr hbad'
        have hwrong : isForbiddenAddress mappedToo text ≠ isForbiddenAddress mappedToo text' :=
          fun h => hright.mp (h.trans hvalue) hbad
        simp [hbad, hbad', hwrong]
    · have hvalue := hright.mpr hbad
      by_cases hbad' : Misread mappedToo text'
      · have hwrong : isForbiddenAddress mappedToo text ≠ isForbiddenAddress mappedToo text' :=
          fun h => hright'.mp (h.symm.trans hvalue) hbad'
        simp [hbad, hbad', hwrong]
      · simp [hbad, hbad', hvalue, hright'.mpr hbad']

/-- `::7f00:1` is `::127.0.0.1`, and is let through. -/
theorem hexadecimal_loopback_is_public :
    IpAddress.parse "::7f00:1".toList = some (.v6 0x7f000001) ∧
      IpAddress.parse "::127.0.0.1".toList = some (.v6 0x7f000001) ∧
      IpAddress.embedded 0x7f000001 = some 0x7f000001 ∧
      (∀ mappedToo, isForbiddenAddress mappedToo "::7f00:1" = false ∧
        isForbiddenAddress mappedToo "::127.0.0.1" = true ∧
        isForbiddenAddress mappedToo (String.ofList (IpAddress.quadText 0x7f000001)) = true) := by
  decide +kernel

/-- The dotted spelling is judged by the IPv4 address in it. -/
theorem dotted_loopback_verdict :
    isForbiddenAddress false "::127.0.0.1" =
        isForbiddenAddress false (String.ofList (IpAddress.quadText 0x7f000001)) ↔
      ¬ Misread false "::127.0.0.1" :=
  (verdict_is_of_the_value false).1 "::127.0.0.1" 0x7f000001 0x7f000001 (by decide +kernel)
    (by decide +kernel)

end AppPort
