import Mathlib.Data.List.Basic
import Mathlib.Data.List.TakeWhile
import Mathlib.Tactic.IntervalCases

/-!
# Base64url — bytes as URL-safe text

Three bytes are four symbols of six bits; a last byte or two are two or three symbols, and
nothing is padded. Decoding passes over what is no symbol, stops at padding and drops bits
that make no byte; it takes back what encoding wrote.
-/

namespace Base64url

/-- The symbol of a value below 64. -/
def symbol (n : Nat) : Char :=
  "ABCDEFGHIJKLMNOPQRSTUVWXYZabcdefghijklmnopqrstuvwxyz0123456789-_".toList.getD n 'A'

/-- The value of a symbol, in either alphabet. -/
def value? (c : Char) : Option Nat :=
  if c.isUpper then some (c.toNat - 'A'.toNat)
  else if c.isLower then some (c.toNat - 'a'.toNat + 26)
  else if c.isDigit then some (c.toNat - '0'.toNat + 52)
  else if c = '-' ∨ c = '+' then some 62
  else if c = '_' ∨ c = '/' then some 63
  else none

/-- The symbol values of bytes. -/
def toSextets : List UInt8 → List Nat
  | [] => []
  | [a] => [a.toNat / 4, a.toNat % 4 * 16]
  | [a, b] => [a.toNat / 4, a.toNat % 4 * 16 + b.toNat / 16, b.toNat % 16 * 4]
  | a :: b :: c :: rest =>
    a.toNat / 4 :: (a.toNat % 4 * 16 + b.toNat / 16) :: (b.toNat % 16 * 4 + c.toNat / 64) ::
      c.toNat % 64 :: toSextets rest

/-- The bytes of symbol values. -/
def ofSextets : List Nat → List UInt8
  | [] | [_] => []
  | [s, t] => [UInt8.ofNat (s * 4 + t / 16)]
  | [s, t, u] => [UInt8.ofNat (s * 4 + t / 16), UInt8.ofNat (t % 16 * 16 + u / 4)]
  | s :: t :: u :: v :: rest =>
    UInt8.ofNat (s * 4 + t / 16) :: UInt8.ofNat (t % 16 * 16 + u / 4) ::
      UInt8.ofNat (u % 4 * 64 + v) :: ofSextets rest

/-- The text of bytes. -/
def encode (bytes : List UInt8) : String := String.ofList ((toSextets bytes).map symbol)

/-- The bytes of a text. -/
def decode (text : String) : List UInt8 :=
  ofSextets ((text.toList.takeWhile fun c => c != '=').filterMap value?)

/-! ## Symbols -/

theorem value?_symbol {n : Nat} (h : n < 64) : value? (symbol n) = some n := by
  interval_cases n <;> decide

theorem symbol_ne_padding {n : Nat} (h : n < 64) : symbol n ≠ '=' := by
  interval_cases n <;> decide

theorem sextet_lt : {bytes : List UInt8} → ∀ n ∈ toSextets bytes, n < 64
  | [], n, h => by cases h
  | [a], n, h => by
    have ha := a.toNat_lt
    simp only [toSextets, List.mem_cons, List.not_mem_nil, or_false] at h
    omega
  | [a, b], n, h => by
    have ha := a.toNat_lt
    have hb := b.toNat_lt
    simp only [toSextets, List.mem_cons, List.not_mem_nil, or_false] at h
    omega
  | a :: b :: c :: rest, n, h => by
    have ha := a.toNat_lt
    have hb := b.toNat_lt
    have hc := c.toNat_lt
    simp only [toSextets, List.mem_cons] at h
    rcases h with h | h | h | h | h
    · omega
    · omega
    · omega
    · omega
    · exact sextet_lt n h

/-- A text that was encoded is one of symbols. -/
theorem mem_encode {bytes : List UInt8} {c : Char} (h : c ∈ (encode bytes).toList) :
    ∃ n < 64, c = symbol n := by
  rw [encode, String.toList_ofList] at h
  obtain ⟨n, hn, rfl⟩ := List.mem_map.mp h
  exact ⟨n, sextet_lt n hn, rfl⟩

theorem toSextets_ne_nil : {bytes : List UInt8} → bytes ≠ [] → toSextets bytes ≠ []
  | [], h => absurd rfl h
  | [_], _ => List.cons_ne_nil _ _
  | [_, _], _ => List.cons_ne_nil _ _
  | _ :: _ :: _ :: _, _ => List.cons_ne_nil _ _

/-- Bytes are no empty text. -/
theorem encode_ne_empty {bytes : List UInt8} (h : bytes ≠ []) : encode bytes ≠ "" := by
  intro hempty
  have hchars := congrArg String.toList hempty
  rw [encode, String.toList_ofList] at hchars
  exact toSextets_ne_nil h (List.map_eq_nil_iff.mp hchars)

/-! ## The round trip -/

theorem ofSextets_toSextets : (bytes : List UInt8) → ofSextets (toSextets bytes) = bytes
  | [] => rfl
  | [a] => by
    have ha := a.toNat_lt
    have hfirst : a.toNat / 4 * 4 + a.toNat % 4 * 16 / 16 = a.toNat := by omega
    simp only [toSextets, ofSextets, hfirst, UInt8.ofNat_toNat]
  | [a, b] => by
    have hfirst : a.toNat / 4 * 4 + (a.toNat % 4 * 16 + b.toNat / 16) / 16 = a.toNat := by
      have hb := b.toNat_lt
      omega
    have hsecond : (a.toNat % 4 * 16 + b.toNat / 16) % 16 * 16 + b.toNat % 16 * 4 / 4 = b.toNat := by
      have hb := b.toNat_lt
      omega
    simp only [toSextets, ofSextets, hfirst, hsecond, UInt8.ofNat_toNat]
  | a :: b :: c :: rest => by
    have hfirst : a.toNat / 4 * 4 + (a.toNat % 4 * 16 + b.toNat / 16) / 16 = a.toNat := by
      have hb := b.toNat_lt
      omega
    have hsecond : (a.toNat % 4 * 16 + b.toNat / 16) % 16 * 16 +
        (b.toNat % 16 * 4 + c.toNat / 64) / 4 = b.toNat := by
      have hb := b.toNat_lt
      have hc := c.toNat_lt
      omega
    have hthird : (b.toNat % 16 * 4 + c.toNat / 64) % 4 * 64 + c.toNat % 64 = c.toNat := by
      have hc := c.toNat_lt
      omega
    simp only [toSextets, ofSextets, hfirst, hsecond, hthird, UInt8.ofNat_toNat,
      ofSextets_toSextets rest]

/-- **Decoding undoes encoding.** -/
theorem decode_encode (bytes : List UInt8) : decode (encode bytes) = bytes := by
  have hkept : ((toSextets bytes).map symbol).takeWhile (fun c => c != '=') =
      (toSextets bytes).map symbol := by
    rw [List.takeWhile_eq_self_iff]
    intro c hc
    obtain ⟨n, hn, rfl⟩ := List.mem_map.mp hc
    simpa using symbol_ne_padding (sextet_lt n hn)
  have hread : ((toSextets bytes).map symbol).filterMap value? = toSextets bytes := by
    rw [List.filterMap_map]
    conv_rhs => rw [← List.filterMap_some (l := toSextets bytes)]
    refine List.filterMap_congr fun n hn => ?_
    exact value?_symbol (sextet_lt n hn)
  rw [decode, encode, String.toList_ofList, hkept, hread, ofSextets_toSextets]

end Base64url
