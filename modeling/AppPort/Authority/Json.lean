import AppPort.Authority.Basic
import Mathlib.Tactic.IntervalCases

/-!
# JSON texts

How `JSON.stringify` writes values. What is hashed or compared as a text has to be
told apart by it: the text of a list of strings determines the list.
-/

namespace AppPort

/-- Insert an entry into entries sorted by key. -/
def insertEntry (e : String × String) : List (String × String) → List (String × String)
  | [] => [e]
  | x :: xs => if e.1 ≤ x.1 then e :: x :: xs else x :: insertEntry e xs

/-- A lower-case hexadecimal digit. -/
def lowerHexDigit (n : Nat) : Char := "0123456789abcdef".toList.getD n '0'

/-- How `JSON.stringify` writes one character of a string. -/
def escapeJson (c : Char) : List Char :=
  if c = '"' ∨ c = '\\' then ['\\', c]
  else match c.toNat with
    | 8 => ['\\', 'b']
    | 9 => ['\\', 't']
    | 10 => ['\\', 'n']
    | 12 => ['\\', 'f']
    | 13 => ['\\', 'r']
    | n => if n < 32 then ['\\', 'u', '0', '0', lowerHexDigit (n / 16), lowerHexDigit (n % 16)]
      else [c]

/-- The text of a JSON string, its quotes included. -/
def quoteJson (s : String) : String := "\"" ++ String.ofList (s.toList.flatMap escapeJson) ++ "\""

mutual

/-- `stableJson`: JSON with the keys of every object sorted, nothing for `undefined`. -/
def JsValue.stableJson : JsValue → Option String
  | .undefined => none
  | .null => some "null"
  | .bool b => some (if b then "true" else "false")
  | .num n => some (toString n)
  | .str s => some (quoteJson s)
  | .arr xs => some ("[" ++ ",".intercalate (JsValue.stableItems xs) ++ "]")
  | .obj fields => some ("\x7b" ++ ",".intercalate
      ((JsValue.stableFields fields).map fun e => quoteJson e.1 ++ ":" ++ e.2) ++ "\x7d")

def JsValue.stableItems : List JsValue → List String
  | [] => []
  | x :: xs => x.stableJson.getD "null" :: JsValue.stableItems xs

def JsValue.stableFields : List (String × JsValue) → List (String × String)
  | [] => []
  | (key, value) :: rest =>
    match value.stableJson with
    | some text => insertEntry (key, text) (JsValue.stableFields rest)
    | none => JsValue.stableFields rest

end

/-- `JSON.stringify` of an array of strings. -/
def jsonTexts (parts : List String) : String :=
  "[" ++ ",".intercalate (parts.map quoteJson) ++ "]"

/-! ## What a text determines -/

/-- The character an escaped text starts with, and what follows it. -/
def unescapeJson : List Char → Option (Char × List Char)
  | '\\' :: 'b' :: rest => some ('\x08', rest)
  | '\\' :: 't' :: rest => some ('\x09', rest)
  | '\\' :: 'n' :: rest => some ('\x0a', rest)
  | '\\' :: 'f' :: rest => some ('\x0c', rest)
  | '\\' :: 'r' :: rest => some ('\x0d', rest)
  | '\\' :: 'u' :: _ :: _ :: high :: low :: rest =>
    some (Char.ofNat (16 * "0123456789abcdef".toList.idxOf high +
      "0123456789abcdef".toList.idxOf low), rest)
  | '\\' :: c :: rest => some (c, rest)
  | c :: rest => some (c, rest)
  | [] => none

/-- A control character is told apart by the letter or the digits it is escaped with. -/
theorem unescapeJson_control (n : Nat) (h : n < 32) (rest : List Char) :
    unescapeJson (escapeJson (Char.ofNat n) ++ rest) = some (Char.ofNat n, rest) := by
  interval_cases n <;> rfl

theorem escapeJson_plain {c : Char} (hquote : c ≠ '"') (hslash : c ≠ '\\') (h : 32 ≤ c.toNat) :
    escapeJson c = [c] := by
  unfold escapeJson
  rw [if_neg (by simp [hquote, hslash])]
  split
  all_goals first
    | omega
    | rw [if_neg (by omega)]

/-- **Escaping can be undone**, whatever follows. -/
theorem unescapeJson_escapeJson (c : Char) (rest : List Char) :
    unescapeJson (escapeJson c ++ rest) = some (c, rest) := by
  by_cases hquote : c = '"'
  · subst hquote
    rfl
  by_cases hslash : c = '\\'
  · subst hslash
    rfl
  by_cases hcontrol : c.toNat < 32
  · have h := unescapeJson_control c.toNat hcontrol rest
    rwa [show Char.ofNat c.toNat = c from Char.ofNat_toNat c] at h
  · rw [escapeJson_plain hquote hslash (by omega)]
    show unescapeJson (c :: rest) = some (c, rest)
    unfold unescapeJson
    split <;> simp_all

/-- An escaped text does not end a string. -/
theorem escapeJson_open (c : Char) : ∃ d rest, escapeJson c = d :: rest ∧ d ≠ '"' := by
  unfold escapeJson
  split
  · exact ⟨'\\', [c], rfl, by decide⟩
  next h =>
  split
  case h_6 =>
    split
    · exact ⟨'\\', _, rfl, by decide⟩
    · exact ⟨c, [], rfl, fun hc => h (.inl hc)⟩
  all_goals exact ⟨'\\', _, rfl, by decide⟩

/-- **An escaped text ends at its quote**: what follows it is determined too. -/
theorem escaped_cancel : (a b : List Char) → {r r' : List Char} →
    a.flatMap escapeJson ++ '"' :: r = b.flatMap escapeJson ++ '"' :: r' → a = b ∧ r = r'
  | [], [], r, r', h => ⟨rfl, (List.cons.inj h).2⟩
  | [], c :: b, r, r', h => by
    obtain ⟨d, rest, hd, hne⟩ := escapeJson_open c
    rw [List.flatMap_cons, hd] at h
    exact absurd (List.cons.inj h).1.symm hne
  | c :: a, [], r, r', h => by
    obtain ⟨d, rest, hd, hne⟩ := escapeJson_open c
    rw [List.flatMap_cons, hd] at h
    exact absurd (List.cons.inj h).1 hne
  | c :: a, d :: b, r, r', h => by
    have hread := congrArg unescapeJson h
    rw [List.flatMap_cons, List.flatMap_cons, List.append_assoc, List.append_assoc,
      unescapeJson_escapeJson, unescapeJson_escapeJson] at hread
    obtain ⟨rfl, hrest⟩ := Prod.mk.inj (Option.some.inj hread)
    obtain ⟨rfl, rfl⟩ := escaped_cancel a b hrest
    exact ⟨rfl, rfl⟩

theorem toList_quoteJson (s : String) :
    (quoteJson s).toList = '"' :: (s.toList.flatMap escapeJson ++ ['"']) := by
  simp [quoteJson]

/-- The strings of an array, from its first quote to its bracket. -/
def jsonItems : List String → List Char
  | [] => [']']
  | [s] => (quoteJson s).toList ++ [']']
  | s :: rest => (quoteJson s).toList ++ ',' :: jsonItems rest

theorem toList_jsonTexts : (parts : List String) →
    (jsonTexts parts).toList = '[' :: jsonItems parts
  | [] => rfl
  | [s] => by simp [jsonTexts, jsonItems]
  | s :: s' :: rest => by
    have h := toList_jsonTexts (s' :: rest)
    simp only [jsonTexts, List.map_cons, String.toList_append] at h
    simp only [jsonTexts, List.map_cons, String.intercalate_cons_cons, String.toList_append, jsonItems]
    have h := (List.cons.inj h).2
    simp only [List.append_eq] at h ⊢
    simpa using h

theorem jsonItems_injective : (a b : List String) → jsonItems a = jsonItems b → a = b
  | [], [] => fun _ => rfl
  | [], [s] => by simp [jsonItems, toList_quoteJson]
  | [], s :: _ :: _ => by simp [jsonItems, toList_quoteJson]
  | [s], [] => by simp [jsonItems, toList_quoteJson]
  | s :: _ :: _, [] => by simp [jsonItems, toList_quoteJson]
  | [s], [t] => by
    intro h
    simp only [jsonItems, toList_quoteJson, List.cons_append, List.append_assoc, List.cons.injEq,
      true_and] at h
    rw [String.toList_inj.mp (escaped_cancel _ _ h).1]
  | [s], t :: t' :: rest => by
    intro h
    simp only [jsonItems, toList_quoteJson, List.cons_append, List.append_assoc, List.cons.injEq,
      true_and] at h
    exact absurd (List.cons.inj (escaped_cancel _ _ h).2).1 (by decide)
  | s :: s' :: rest, [t] => by
    intro h
    simp only [jsonItems, toList_quoteJson, List.cons_append, List.append_assoc, List.cons.injEq,
      true_and] at h
    exact absurd (List.cons.inj (escaped_cancel _ _ h).2).1 (by decide)
  | s :: s' :: rest, t :: t' :: rest' => by
    intro h
    simp only [jsonItems, toList_quoteJson, List.cons_append, List.append_assoc, List.cons.injEq,
      true_and] at h
    obtain ⟨hs, htail⟩ := escaped_cancel _ _ h
    rw [String.toList_inj.mp hs,
      jsonItems_injective (s' :: rest) (t' :: rest') (List.cons.inj htail).2]

/-- **The text of an array of strings determines the strings.** -/
theorem jsonTexts_injective : Function.Injective jsonTexts := by
  intro a b h
  have hlist := congrArg String.toList h
  rw [toList_jsonTexts, toList_jsonTexts] at hlist
  exact jsonItems_injective a b (List.cons.inj hlist).2

end AppPort
