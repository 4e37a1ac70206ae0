import AppPort.Lib.OwnOrder

/-!
# JSON values, their text and its reading

`JSON.stringify` and `JSON.parse`, on code units. The text is written with a rule for
strings: the one of `JSON.stringify`, or any other whose texts are read back
(`ReadsBack`). What is written by such a rule is parsed to what was written,
`parse_text`, and so the text determines the value.

Numbers are a parameter: finite numbers with their canonical texts.
-/

namespace Effects

/-- The units that number texts consist of: digits, signs, point and exponent. -/
def isNumericUnit (c : Nat) : Bool :=
  isDigitUnit c || c == 43 || c == 45 || c == 46 || c == 69 || c == 101

/-- Finite numbers with the texts they are written as and read from. -/
class JsonNumber (ν : Type) where
  text : ν → Units
  read : Units → Option ν
  read_text : ∀ x, read (text x) = some x
  numeric : ∀ x, ∀ c ∈ text x, isNumericUnit c = true
  nonempty : ∀ x, text x ≠ []

/-- A JSON value; the entries of an object are listed in the order of its properties. -/
inductive Json (ν : Type) where
  | null
  | bool (b : Bool)
  | num (x : ν)
  | str (s : Units)
  | arr (items : List (Json ν))
  | obj (entries : List (Units × Json ν))

namespace Json

variable {ν : Type}

/-- **Induction over a value**: arrays by their items, objects by their entries. -/
theorem induct {P : Json ν → Prop} (null : P .null) (bool : ∀ b, P (.bool b))
    (num : ∀ x, P (.num x)) (str : ∀ s, P (.str s)) (arr : ∀ items, (∀ v ∈ items, P v) → P (.arr items))
    (obj : ∀ entries, (∀ e ∈ entries, P e.2) → P (.obj entries)) (v : Json ν) : P v :=
  match v with
  | .null => null
  | .bool b => bool b
  | .num x => num x
  | .str s => str s
  | .arr items => arr items fun v _ => induct null bool num str arr obj v
  | .obj entries => obj entries fun e _ => induct null bool num str arr obj e.2
termination_by sizeOf v
decreasing_by
  all_goals simp_wf
  · have hsize := List.sizeOf_lt_of_mem ‹v ∈ items›
    omega
  · have hsize := List.sizeOf_lt_of_mem ‹e ∈ entries›
    rcases e with ⟨key, value⟩
    simp only [Prod.mk.sizeOf_spec] at hsize
    show sizeOf value < _
    omega

/-- A value an object graph can hold: its objects list their properties in order. -/
inductive WellFormed : Json ν → Prop where
  | null : WellFormed .null
  | bool (b : Bool) : WellFormed (.bool b)
  | num (x : ν) : WellFormed (.num x)
  | str (s : Units) : WellFormed (.str s)
  | arr {items : List (Json ν)} (h : ∀ v ∈ items, WellFormed v) : WellFormed (.arr items)
  | obj {entries : List (Units × Json ν)} (hown : OwnOrder entries)
    (h : ∀ e ∈ entries, WellFormed e.2) : WellFormed (.obj entries)

end Json

/-- A JSON value whose objects list their properties in order. -/
structure JsonValue (ν : Type) where
  json : Json ν
  wellFormed : json.WellFormed

/-! ## Strings -/

/-- A lower-case hexadecimal digit. -/
def hexUnit (n : Nat) : Nat := if n < 10 then 48 + n else 87 + n

/-- The digit a unit stands for, in either case. -/
def hexValue (c : Nat) : Option Nat :=
  if isDigitUnit c then some (c - 48)
  else if 97 ≤ c ∧ c ≤ 102 then some (c - 87)
  else if 65 ≤ c ∧ c ≤ 70 then some (c - 55)
  else none

/-- `\uXXXX`. -/
def unicodeEscape (c : Nat) : Units :=
  [92, 117, hexUnit (c / 4096), hexUnit (c / 256 % 16), hexUnit (c / 16 % 16), hexUnit (c % 16)]

def isHighSurrogate (c : Nat) : Bool := 0xD800 ≤ c && c ≤ 0xDBFF

def isLowSurrogate (c : Nat) : Bool := 0xDC00 ≤ c && c ≤ 0xDFFF

/-- What one unit of a string is written as, a lone surrogate included. -/
def escapeUnit (c : Nat) : Units :=
  if c = 8 then [92, 98]
  else if c = 9 then [92, 116]
  else if c = 10 then [92, 110]
  else if c = 12 then [92, 102]
  else if c = 13 then [92, 114]
  else if c = 34 then [92, 34]
  else if c = 92 then [92, 92]
  else if c < 32 ∨ isHighSurrogate c ∨ isLowSurrogate c then unicodeEscape c
  else [c]

/-- The units of a string, by a rule for each; surrogates in pairs stand for themselves. -/
def escapeUnits (escape : Nat → Units) : Units → Units
  | [] => []
  | [c] => escape c
  | c :: d :: rest =>
    if isHighSurrogate c && isLowSurrogate d then c :: d :: escapeUnits escape rest
    else escape c ++ escapeUnits escape (d :: rest)

/-- A string between its quotes. -/
def quoteUnits (escape : Nat → Units) (s : Units) : Units := 34 :: (escapeUnits escape s ++ [34])

/-- What a letter after a backslash stands for. -/
def unescapeUnit (c : Nat) : Option Nat :=
  if c = 34 ∨ c = 92 ∨ c = 47 then some c
  else if c = 98 then some 8
  else if c = 102 then some 12
  else if c = 110 then some 10
  else if c = 114 then some 13
  else if c = 116 then some 9
  else none

/-- The string up to its closing quote, and what follows it. -/
def readUnits : Units → Option (Units × Units)
  | [] => none
  | c :: rest =>
    if c = 34 then some ([], rest)
    else if c = 92 then
      match rest with
      | [] => none
      | e :: rest =>
        if e = 117 then
          match rest with
          | a :: b :: c :: d :: rest =>
            match hexValue a, hexValue b, hexValue c, hexValue d with
            | some a, some b, some c, some d =>
              (readUnits rest).map fun r => ((a * 4096 + b * 256 + c * 16 + d) :: r.1, r.2)
            | _, _, _, _ => none
          | _ => none
        else
          match unescapeUnit e with
          | some u => (readUnits rest).map fun r => (u :: r.1, r.2)
          | none => none
    else if c < 32 then none
    else (readUnits rest).map fun r => (c :: r.1, r.2)

/-- A rule for units whose texts are read back, whatever follows. -/
def ReadsBack (escape : Nat → Units) : Prop :=
  ∀ c rest, readUnits (escape c ++ rest) = (readUnits rest).map fun r => (c :: r.1, r.2)

theorem hexValue_hexUnit {n : Nat} (h : n < 16) : hexValue (hexUnit n) = some n := by
  unfold hexUnit hexValue isDigitUnit
  split
  · rw [if_pos (by simp; omega)]
    simp
  · rw [if_neg (by simp; omega), if_pos (by omega)]
    simp

theorem readUnits_quote (rest : Units) : readUnits (34 :: rest) = some ([], rest) := by
  rw [readUnits.eq_def]
  simp only [↓reduceIte]

/-- A unit that is written as itself. -/
theorem readUnits_plain {c : Nat} (hquote : c ≠ 34) (hslash : c ≠ 92) (hcontrol : ¬ c < 32)
    (rest : Units) : readUnits (c :: rest) = (readUnits rest).map fun r => (c :: r.1, r.2) := by
  rw [readUnits.eq_def]
  simp only [if_neg hquote, if_neg hslash, if_neg hcontrol]

theorem readUnits_unicodeEscape {c : Nat} (h : c < 65536) (rest : Units) :
    readUnits (unicodeEscape c ++ rest) = (readUnits rest).map fun r => (c :: r.1, r.2) := by
  have hvalue : c / 4096 * 4096 + c / 256 % 16 * 256 + c / 16 % 16 * 16 + c % 16 = c := by omega
  simp only [unicodeEscape, List.cons_append, List.nil_append]
  rw [readUnits.eq_def]
  simp only [if_neg (show ¬ (92 = 34) by decide), ↓reduceIte,
    hexValue_hexUnit (show c / 4096 < 16 by omega),
    hexValue_hexUnit (show c / 256 % 16 < 16 by omega),
    hexValue_hexUnit (show c / 16 % 16 < 16 by omega),
    hexValue_hexUnit (show c % 16 < 16 by omega), hvalue]

/-- A letter after a backslash. -/
theorem readUnits_letter {e u : Nat} (hletter : e ≠ 117) (hunit : unescapeUnit e = some u)
    (rest : Units) :
    readUnits (92 :: e :: rest) = (readUnits rest).map fun r => (u :: r.1, r.2) := by
  rw [readUnits.eq_def]
  simp only [if_neg (show ¬ (92 = 34) by decide), ↓reduceIte, if_neg hletter, hunit]

/-- **What `JSON.stringify` writes for a unit is read back.** -/
theorem readsBack_escapeUnit : ReadsBack escapeUnit := by
  intro c rest
  unfold escapeUnit
  split
  · next h =>
    rw [h]
    exact readUnits_letter (by decide) rfl rest
  split
  · next h =>
    rw [h]
    exact readUnits_letter (by decide) rfl rest
  split
  · next h =>
    rw [h]
    exact readUnits_letter (by decide) rfl rest
  split
  · next h =>
    rw [h]
    exact readUnits_letter (by decide) rfl rest
  split
  · next h =>
    rw [h]
    exact readUnits_letter (by decide) rfl rest
  split
  · next h =>
    rw [h]
    exact readUnits_letter (by decide) rfl rest
  split
  · next h =>
    rw [h]
    exact readUnits_letter (by decide) rfl rest
  split
  · next h =>
    have hsmall : c < 65536 := by
      unfold isHighSurrogate isLowSurrogate at h
      simp at h
      omega
    exact readUnits_unicodeEscape hsmall rest
  · next hquote hslash h =>
    exact readUnits_plain hquote hslash (fun hcontrol => h (.inl hcontrol)) rest

/-- A string is read back up to its quote. -/
theorem readUnits_escapeUnits {escape : Nat → Units} (h : ReadsBack escape) (s rest : Units) :
    readUnits (escapeUnits escape s ++ 34 :: rest) = some (s, rest) := by
  induction s using escapeUnits.induct with
  | case1 => exact readUnits_quote rest
  | case2 c =>
    rw [escapeUnits, h, readUnits_quote]
    rfl
  | case3 c d tail hpair ih =>
    rw [escapeUnits, if_pos hpair]
    simp only [isHighSurrogate, isLowSurrogate, Bool.and_eq_true, decide_eq_true_eq] at hpair
    rw [List.cons_append, List.cons_append,
      readUnits_plain (by omega) (by omega) (by omega),
      readUnits_plain (by omega) (by omega) (by omega), ih]
    rfl
  | case4 c d tail hpair ih =>
    rw [escapeUnits, if_neg hpair, List.append_assoc, h, ih]
    rfl

/-! ## Texts -/

namespace Json

variable {ν : Type} [JsonNumber ν]

mutual

/-- The text of a value, its strings written by a rule. -/
def text (escape : Nat → Units) : Json ν → Units
  | .null => [110, 117, 108, 108]
  | .bool true => [116, 114, 117, 101]
  | .bool false => [102, 97, 108, 115, 101]
  | .num x => JsonNumber.text x
  | .str s => quoteUnits escape s
  | .arr items => 91 :: itemsText escape items
  | .obj entries => 123 :: entriesText escape entries

/-- The items of an array, up to its bracket. -/
def itemsText (escape : Nat → Units) : List (Json ν) → Units
  | [] => [93]
  | [v] => v.text escape ++ [93]
  | v :: w :: rest => v.text escape ++ 44 :: itemsText escape (w :: rest)

/-- The entries of an object, up to its brace. -/
def entriesText (escape : Nat → Units) : List (Units × Json ν) → Units
  | [] => [125]
  | [(key, v)] => quoteUnits escape key ++ 58 :: (v.text escape ++ [125])
  | (key, v) :: e :: rest =>
    quoteUnits escape key ++ 58 :: (v.text escape ++ 44 :: entriesText escape (e :: rest))

end

/-- `JSON.stringify(value)`. -/
def stringify (v : Json ν) : Units := v.text escapeUnit

end Json

end Effects
