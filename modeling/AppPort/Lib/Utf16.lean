import AppPort.Lib.JsonParse

/-!
# Code units of a text

A text is a list of characters, and its code units are one or two for each. Reading the
units back gives the characters, `ofUtf16_utf16`. The text of a JSON value whose strings
are texts is a text itself, so that it can be kept as one and read from it.
-/

namespace Effects

/-- The code units of a character. -/
def utf16Char (c : Char) : Units :=
  if c.toNat < 0x10000 then [c.toNat]
  else [0xD800 + (c.toNat - 0x10000) / 0x400, 0xDC00 + (c.toNat - 0x10000) % 0x400]

/-- The code units of a text. -/
def utf16 (text : List Char) : Units := text.flatMap utf16Char

/-- The text of these units; a lone surrogate is the replacement character. -/
def ofUtf16 : Units → List Char
  | [] => []
  | [u] => if isHighSurrogate u || isLowSurrogate u then ['\uFFFD'] else [Char.ofNat u]
  | u :: v :: rest =>
    if isHighSurrogate u && isLowSurrogate v then
      Char.ofNat (0x10000 + (u - 0xD800) * 0x400 + (v - 0xDC00)) :: ofUtf16 rest
    else if isHighSurrogate u || isLowSurrogate u then '\uFFFD' :: ofUtf16 (v :: rest)
    else Char.ofNat u :: ofUtf16 (v :: rest)

theorem utf16_cons (c : Char) (text : List Char) : utf16 (c :: text) = utf16Char c ++ utf16 text :=
  List.flatMap_cons

theorem utf16_append (a b : List Char) : utf16 (a ++ b) = utf16 a ++ utf16 b :=
  List.flatMap_append

theorem surrogate_free (c : Char) (h : c.toNat < 0x10000) :
    isHighSurrogate c.toNat = false ∧ isLowSurrogate c.toNat = false := by
  have hvalid : c.toNat < 0xD800 ∨ 0xDFFF < c.toNat ∧ c.toNat < 0x110000 := c.valid
  simp only [isHighSurrogate, isLowSurrogate, Bool.and_eq_false_iff, decide_eq_false_iff_not]
  omega

/-- A character is read from the units it begins with. -/
theorem ofUtf16_char (c : Char) (rest : Units) :
    ofUtf16 (utf16Char c ++ rest) = c :: ofUtf16 rest := by
  have hvalid : c.toNat < 0xD800 ∨ 0xDFFF < c.toNat ∧ c.toNat < 0x110000 := c.valid
  unfold utf16Char
  by_cases hsmall : c.toNat < 0x10000
  · obtain ⟨hhigh, hlow⟩ := surrogate_free c hsmall
    rw [if_pos hsmall]
    cases rest with
    | nil => simp [ofUtf16, hhigh, hlow]
    | cons v rest => simp [ofUtf16, hhigh, hlow]
  · rw [if_neg hsmall]
    have hpair : (isHighSurrogate (0xD800 + (c.toNat - 0x10000) / 0x400) &&
        isLowSurrogate (0xDC00 + (c.toNat - 0x10000) % 0x400)) = true := by
      simp only [isHighSurrogate, isLowSurrogate, Bool.and_eq_true, decide_eq_true_eq]
      omega
    have hcode : 0x10000 + (0xD800 + (c.toNat - 0x10000) / 0x400 - 0xD800) * 0x400 +
        (0xDC00 + (c.toNat - 0x10000) % 0x400 - 0xDC00) = c.toNat := by omega
    simp only [List.cons_append, List.nil_append, ofUtf16, if_pos hpair, hcode, Char.ofNat_toNat]

/-- **Reading the units of a text gives the text.** -/
theorem ofUtf16_utf16 (text : List Char) : ofUtf16 (utf16 text) = text := by
  induction text with
  | nil => rfl
  | cons c text ih => rw [utf16_cons, ofUtf16_char, ih]

/-- The units are those of a text. -/
def IsUtf16 (units : Units) : Prop := ∃ text, units = utf16 text

theorem IsUtf16.read {units : Units} (h : IsUtf16 units) : utf16 (ofUtf16 units) = units := by
  obtain ⟨text, rfl⟩ := h
  rw [ofUtf16_utf16]

theorem IsUtf16.append {a b : Units} (ha : IsUtf16 a) (hb : IsUtf16 b) : IsUtf16 (a ++ b) := by
  obtain ⟨text, rfl⟩ := ha
  obtain ⟨text', rfl⟩ := hb
  exact ⟨text ++ text', (utf16_append _ _).symm⟩

/-- ASCII units are their own characters. -/
theorem isUtf16_ascii : {units : Units} → (∀ u ∈ units, u < 128) → IsUtf16 units
  | [], _ => ⟨[], rfl⟩
  | u :: rest, h => by
    obtain ⟨text, htext⟩ := isUtf16_ascii fun v hv => h v (List.mem_cons_of_mem _ hv)
    have hu := h u List.mem_cons_self
    have hchar : (Char.ofNat u).toNat = u := by
      have hvalid : u.isValidChar := .inl (by omega)
      have hofNat : Char.ofNat u = Char.ofNatAux u hvalid := dif_pos hvalid
      rw [hofNat]
      rfl
    refine ⟨Char.ofNat u :: text, ?_⟩
    rw [utf16_cons, utf16Char, hchar, if_pos (by omega), htext]
    rfl

/-- One ASCII unit before a text. -/
theorem IsUtf16.cons {u : Nat} {rest : Units} (hu : u < 128) (h : IsUtf16 rest) :
    IsUtf16 (u :: rest) := by
  have hunit : IsUtf16 [u] := isUtf16_ascii (by simpa using hu)
  exact hunit.append h

/-! ## JSON texts -/

theorem hexUnit_ascii {n : Nat} (h : n < 16) : hexUnit n < 128 := by
  unfold hexUnit
  split <;> omega

/-- A unit that is no surrogate is escaped in ASCII, or stands for itself. -/
theorem isUtf16_escapeUnit (c : Char) (h : c.toNat < 0x10000) : IsUtf16 (escapeUnit c.toNat) := by
  obtain ⟨hhigh, hlow⟩ := surrogate_free c h
  unfold escapeUnit
  split
  · exact isUtf16_ascii (by decide)
  split
  · exact isUtf16_ascii (by decide)
  split
  · exact isUtf16_ascii (by decide)
  split
  · exact isUtf16_ascii (by decide)
  split
  · exact isUtf16_ascii (by decide)
  split
  · exact isUtf16_ascii (by decide)
  split
  · exact isUtf16_ascii (by decide)
  split
  · refine isUtf16_ascii fun u hu => ?_
    simp only [unicodeEscape, List.mem_cons, List.not_mem_nil, or_false] at hu
    rcases hu with rfl | rfl | rfl | rfl | rfl | rfl
    · decide
    · decide
    · exact hexUnit_ascii (by omega)
    · exact hexUnit_ascii (by omega)
    · exact hexUnit_ascii (by omega)
    · exact hexUnit_ascii (by omega)
  · exact ⟨[c], by simp [utf16, utf16Char, h]⟩

/-- A text is escaped character by character. -/
theorem escapeUnits_utf16 (c : Char) (text : List Char) :
    escapeUnits escapeUnit (utf16 (c :: text)) =
      (if c.toNat < 0x10000 then escapeUnit c.toNat else utf16Char c) ++
        escapeUnits escapeUnit (utf16 text) := by
  rw [utf16_cons, utf16Char]
  by_cases hsmall : c.toNat < 0x10000
  · obtain ⟨hhigh, -⟩ := surrogate_free c hsmall
    rw [if_pos hsmall, if_pos hsmall, List.cons_append, List.nil_append]
    cases utf16 text with
    | nil => simp [escapeUnits]
    | cons u rest => rw [escapeUnits, hhigh, Bool.false_and, if_neg (by simp)]
  · have hvalid : c.toNat < 0xD800 ∨ 0xDFFF < c.toNat ∧ c.toNat < 0x110000 := c.valid
    have hpair : (isHighSurrogate (0xD800 + (c.toNat - 0x10000) / 0x400) &&
        isLowSurrogate (0xDC00 + (c.toNat - 0x10000) % 0x400)) = true := by
      simp only [isHighSurrogate, isLowSurrogate, Bool.and_eq_true, decide_eq_true_eq]
      omega
    rw [if_neg hsmall, if_neg hsmall]
    simp only [List.cons_append, List.nil_append, escapeUnits, if_pos hpair]

theorem isUtf16_quote {s : Units} (h : IsUtf16 s) : IsUtf16 (quoteUnits escapeUnit s) := by
  obtain ⟨text, rfl⟩ := h
  have hinner : IsUtf16 (escapeUnits escapeUnit (utf16 text)) := by
    induction text with
    | nil => exact ⟨[], rfl⟩
    | cons c text ih =>
      rw [escapeUnits_utf16]
      refine IsUtf16.append ?_ ih
      by_cases hsmall : c.toNat < 0x10000
      · rw [if_pos hsmall]
        exact isUtf16_escapeUnit c hsmall
      · rw [if_neg hsmall]
        exact ⟨[c], by simp [utf16]⟩
  exact IsUtf16.cons (by decide) (hinner.append (isUtf16_ascii (by decide)))

namespace Json

variable {ν : Type} [JsonNumber ν]

/-- Every string of the value is a text. -/
inductive Textual : Json ν → Prop where
  | null : Textual .null
  | bool (b : Bool) : Textual (.bool b)
  | num (x : ν) : Textual (.num x)
  | str {s : Units} (h : IsUtf16 s) : Textual (.str s)
  | arr {items : List (Json ν)} (h : ∀ v ∈ items, Textual v) : Textual (.arr items)
  | obj {entries : List (Units × Json ν)} (hkeys : ∀ e ∈ entries, IsUtf16 e.1)
    (h : ∀ e ∈ entries, Textual e.2) : Textual (.obj entries)

theorem isUtf16_itemsText {items : List (Json ν)}
    (h : ∀ v ∈ items, IsUtf16 (v.text escapeUnit)) : IsUtf16 (itemsText escapeUnit items) := by
  induction items with
  | nil =>
    show IsUtf16 [93]
    exact isUtf16_ascii (by decide)
  | cons v rest ih =>
    have hv := h v List.mem_cons_self
    have hrest := ih fun w hw => h w (List.mem_cons_of_mem _ hw)
    cases rest with
    | nil => exact hv.append (isUtf16_ascii (by decide))
    | cons w rest => exact hv.append (hrest.cons (by decide))

theorem isUtf16_entriesText {entries : List (Units × Json ν)}
    (h : ∀ e ∈ entries, IsUtf16 e.1 ∧ IsUtf16 (e.2.text escapeUnit)) :
    IsUtf16 (entriesText escapeUnit entries) := by
  induction entries with
  | nil =>
    show IsUtf16 [125]
    exact isUtf16_ascii (by decide)
  | cons e rest ih =>
    obtain ⟨hkey, hvalue⟩ := h e List.mem_cons_self
    have hrest := ih fun e' he' => h e' (List.mem_cons_of_mem _ he')
    cases rest with
    | nil =>
      exact (isUtf16_quote hkey).append ((hvalue.append (isUtf16_ascii (by decide))).cons (by decide))
    | cons e' rest =>
      exact (isUtf16_quote hkey).append ((hvalue.append (hrest.cons (by decide))).cons (by decide))

theorem numeric_ascii {c : Nat} (h : isNumericUnit c = true) : c < 128 := by
  simp only [isNumericUnit, isDigitUnit, Bool.or_eq_true, Bool.and_eq_true, decide_eq_true_eq,
    beq_iff_eq] at h
  omega

/-- **`JSON.stringify` answers a text** where the strings of the value are texts. -/
theorem isUtf16_stringify (v : Json ν) (h : v.Textual) : IsUtf16 v.stringify := by
  unfold stringify
  induction v using Json.induct with
  | null =>
    show IsUtf16 [110, 117, 108, 108]
    exact isUtf16_ascii (by decide)
  | bool b =>
    cases b with
    | true =>
      show IsUtf16 [116, 114, 117, 101]
      exact isUtf16_ascii (by decide)
    | false =>
      show IsUtf16 [102, 97, 108, 115, 101]
      exact isUtf16_ascii (by decide)
  | num x => exact isUtf16_ascii fun u hu => numeric_ascii (JsonNumber.numeric x u hu)
  | str s =>
    cases h with
    | str h => exact isUtf16_quote h
  | arr items ih =>
    cases h with
    | arr h => exact (isUtf16_itemsText fun v hv => ih v hv (h v hv)).cons (by decide)
  | obj entries ih =>
    cases h with
    | obj hkeys h =>
      exact (isUtf16_entriesText fun e he => ⟨hkeys e he, ih e he (h e he)⟩).cons (by decide)

end Json

end Effects
