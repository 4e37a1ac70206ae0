import AppPort.Lib.Json

/-!
# Reading JSON texts

`JSON.parse`, and what it makes of a text that was written: `parse_text`. The fuel of
the parser bounds the nesting and the number of items; twice the length of the text
always suffices.
-/

namespace Effects

/-- `/[ \t\n\r]/`. -/
def isSpaceUnit (c : Nat) : Bool := c == 32 || c == 9 || c == 10 || c == 13

/-- What follows the white space. -/
def skipSpace (text : Units) : Units := text.dropWhile isSpaceUnit

/-- What follows a unit that has to come next, after white space. -/
def expectUnit (c : Nat) (text : Units) : Option Units :=
  match skipSpace text with
  | [] => none
  | d :: rest => if d = c then some rest else none

/-- What follows a word. -/
def stripWord : Units → Units → Option Units
  | [], text => some text
  | _ :: _, [] => none
  | w :: word, c :: text => if w = c then stripWord word text else none

section parser

variable {ν : Type} [JsonNumber ν]

mutual

/-- One value at the start of a text, and what follows it. -/
def parseValue : Nat → Units → Option (Json ν × Units)
  | 0, _ => none
  | fuel + 1, text =>
    match skipSpace text with
    | [] => none
    | c :: rest =>
      if c = 34 then (readUnits rest).map fun r => (.str r.1, r.2)
      else if c = 91 then
        match expectUnit 93 rest with
        | some rest => some (.arr [], rest)
        | none => (parseItems fuel rest).map fun r => (.arr r.1, r.2)
      else if c = 123 then
        match expectUnit 125 rest with
        | some rest => some (.obj [], rest)
        | none => (parseEntries fuel rest).map fun r => (.obj (fromEntries r.1), r.2)
      else if c = 110 then (stripWord [117, 108, 108] rest).map fun r => (.null, r)
      else if c = 116 then (stripWord [114, 117, 101] rest).map fun r => (.bool true, r)
      else if c = 102 then (stripWord [97, 108, 115, 101] rest).map fun r => (.bool false, r)
      else (JsonNumber.read ((c :: rest).takeWhile isNumericUnit)).map fun x =>
        (.num x, (c :: rest).dropWhile isNumericUnit)

/-- The items of an array up to its bracket, at least one. -/
def parseItems : Nat → Units → Option (List (Json ν) × Units)
  | 0, _ => none
  | fuel + 1, text =>
    match parseValue fuel text with
    | none => none
    | some (v, rest) =>
      match expectUnit 44 rest with
      | some rest => (parseItems fuel rest).map fun r => (v :: r.1, r.2)
      | none => (expectUnit 93 rest).map fun rest => ([v], rest)

/-- The entries of an object up to its brace, at least one. -/
def parseEntries : Nat → Units → Option (List (Units × Json ν) × Units)
  | 0, _ => none
  | fuel + 1, text =>
    match (expectUnit 34 text).bind readUnits with
    | none => none
    | some (key, rest) =>
      match (expectUnit 58 rest).bind (parseValue fuel) with
      | none => none
      | some (v, rest) =>
        match expectUnit 44 rest with
        | some rest => (parseEntries fuel rest).map fun r => ((key, v) :: r.1, r.2)
        | none => (expectUnit 125 rest).map fun rest => ([(key, v)], rest)

end

/-- `JSON.parse(text)`; nothing where that throws. -/
def parseJson (text : Units) : Option (Json ν) :=
  match parseValue (2 * text.length) text with
  | some (v, rest) => if skipSpace rest = [] then some v else none
  | none => none

/-! ## What was written is read -/

theorem expectUnit_self {c : Nat} (h : isSpaceUnit c = false) (rest : Units) :
    expectUnit c (c :: rest) = some rest := by
  simp [expectUnit, skipSpace, h]

theorem expectUnit_other {c d : Nat} (h : isSpaceUnit d = false) (hne : d ≠ c) (rest : Units) :
    expectUnit c (d :: rest) = none := by
  simp [expectUnit, skipSpace, h, hne]

theorem stripWord_self (word rest : Units) : stripWord word (word ++ rest) = some rest := by
  induction word with
  | nil => rfl
  | cons w word ih => simpa [stripWord] using ih

/-- A text that does not go on with a number. -/
def EndsNumber (rest : Units) : Prop := ∀ c, rest.head? = some c → isNumericUnit c = false

theorem endsNumber_nil : EndsNumber [] := by
  intro c h
  cases h

theorem endsNumber_cons {c : Nat} (h : isNumericUnit c = false) (rest : Units) :
    EndsNumber (c :: rest) := by
  intro d hd
  cases hd
  exact h

theorem takeWhile_numeric {digits rest : Units} (hdigits : ∀ c ∈ digits, isNumericUnit c = true)
    (hrest : EndsNumber rest) :
    (digits ++ rest).takeWhile isNumericUnit = digits ∧
      (digits ++ rest).dropWhile isNumericUnit = rest := by
  induction digits with
  | nil =>
    cases rest with
    | nil => simp
    | cons c rest => simp [hrest c rfl]
  | cons c digits ih =>
    obtain ⟨htake, hdrop⟩ := ih (fun d hd => hdigits d (List.mem_cons_of_mem _ hd))
    simp [hdigits c List.mem_cons_self, htake, hdrop]

/-- A unit of a number text begins neither a string, nor a bracket, nor a word. -/
theorem numeric_ne {c : Nat} (h : isNumericUnit c = true) :
    c ≠ 34 ∧ c ≠ 91 ∧ c ≠ 123 ∧ c ≠ 110 ∧ c ≠ 116 ∧ c ≠ 102 ∧ c ≠ 93 ∧ c ≠ 125 ∧
      isSpaceUnit c = false := by
  simp only [isNumericUnit, isDigitUnit, Bool.or_eq_true, Bool.and_eq_true, decide_eq_true_eq,
    beq_iff_eq] at h
  simp only [isSpaceUnit, Bool.or_eq_false_iff, beq_eq_false_iff_ne]
  omega

/-- A text starts with a unit that is no white space, closes nothing and is its own. -/
theorem text_head (escape : Nat → Units) (v : Json ν) :
    ∃ c tail, v.text escape = c :: tail ∧ isSpaceUnit c = false ∧ c ≠ 93 ∧ c ≠ 125 := by
  cases v with
  | null => exact ⟨110, _, rfl, by decide⟩
  | bool b => cases b with
    | true => exact ⟨116, _, rfl, by decide⟩
    | false => exact ⟨102, _, rfl, by decide⟩
  | num x =>
    obtain ⟨c, tail, htext⟩ := List.exists_cons_of_ne_nil (JsonNumber.nonempty x)
    have hnumeric := JsonNumber.numeric x c (by simp [htext])
    obtain ⟨-, -, -, -, -, -, hbracket, hbrace, hspace⟩ := numeric_ne hnumeric
    exact ⟨c, tail, htext, hspace, hbracket, hbrace⟩
  | str s => exact ⟨34, _, rfl, by decide⟩
  | arr items => exact ⟨91, _, rfl, by decide⟩
  | obj entries => exact ⟨123, _, rfl, by decide⟩

/-- The value is read from its text, whatever follows that does not prolong a number. -/
def Reads (escape : Nat → Units) (v : Json ν) : Prop :=
  ∀ fuel rest, 2 * (v.text escape).length ≤ fuel → EndsNumber rest →
    parseValue fuel (v.text escape ++ rest) = some (v, rest)

theorem reads_num (escape : Nat → Units) (x : ν) : Reads escape (.num x) := by
  intro fuel rest hfuel hrest
  obtain ⟨c, tail, htext⟩ := List.exists_cons_of_ne_nil (JsonNumber.nonempty x)
  have hnumeric := JsonNumber.numeric x
  obtain ⟨htake, hdrop⟩ := takeWhile_numeric hnumeric hrest
  obtain ⟨hquote, hbracket, hbrace, hn, ht, hf, -, -, hspace⟩ :=
    numeric_ne (hnumeric c (by simp [htext]))
  simp only [Json.text] at hfuel ⊢
  rw [htext] at hfuel htake hdrop ⊢
  cases fuel with
  | zero => simp at hfuel
  | succ fuel =>
    rw [List.cons_append] at htake hdrop ⊢
    have hskip : skipSpace (c :: (tail ++ rest)) = c :: (tail ++ rest) := by
      simp [skipSpace, hspace]
    simp only [parseValue, hskip, if_neg hquote, if_neg hbracket, if_neg hbrace, if_neg hn,
      if_neg ht, if_neg hf, htake, hdrop]
    rw [← htext, JsonNumber.read_text]
    rfl

theorem reads_str {escape : Nat → Units} (h : ReadsBack escape) (s : Units) :
    Reads escape (.str s : Json ν) := by
  intro fuel rest hfuel _
  cases fuel with
  | zero => simp [Json.text, quoteUnits] at hfuel
  | succ fuel =>
    have hbody : escapeUnits escape s ++ [34] ++ rest = escapeUnits escape s ++ 34 :: rest := by
      simp
    simp only [Json.text, quoteUnits, List.cons_append, parseValue]
    have hskip : ∀ tail : Units, skipSpace (34 :: tail) = 34 :: tail := by
      intro tail
      simp [skipSpace, isSpaceUnit]
    rw [hskip]
    simp only [↓reduceIte, hbody, readUnits_escapeUnits h]
    rfl

/-- The items of an array, by induction: each is read up to its comma or bracket. -/
theorem parseItems_text {escape : Nat → Units} {items : List (Json ν)}
    (h : ∀ v ∈ items, Reads escape v) (hsome : items ≠ []) {fuel : Nat} {rest : Units}
    (hfuel : 2 * (Json.itemsText escape items).length ≤ fuel) :
    parseItems fuel (Json.itemsText escape items ++ rest) = some (items, rest) := by
  induction items generalizing fuel with
  | nil => exact absurd rfl hsome
  | cons v items ih =>
    cases items with
    | nil =>
      simp only [Json.itemsText, List.length_append, List.length_singleton] at hfuel
      cases fuel with
      | zero => omega
      | succ fuel =>
        have hv := h v List.mem_cons_self fuel (93 :: rest) (by omega)
          (endsNumber_cons (by decide) _)
        simp only [Json.itemsText, List.append_assoc, List.singleton_append, parseItems, hv]
        rw [expectUnit_other (by decide) (by decide), expectUnit_self (by decide)]
        rfl
    | cons w items =>
      simp only [Json.itemsText, List.length_append, List.length_cons] at hfuel
      cases fuel with
      | zero => omega
      | succ fuel =>
        have hv := h v List.mem_cons_self fuel
          (44 :: (Json.itemsText escape (w :: items) ++ rest)) (by omega)
          (endsNumber_cons (by decide) _)
        have hitems : parseItems fuel (Json.itemsText escape (w :: items) ++ rest) =
            some (w :: items, rest) :=
          ih (fun x hx => h x (List.mem_cons_of_mem _ hx)) (by simp) (by omega)
        simp only [Json.itemsText, List.append_assoc, List.cons_append, parseItems, hv]
        rw [expectUnit_self (by decide)]
        simp only [hitems]
        rfl

/-- The entries of an object, likewise. -/
theorem parseEntries_text {escape : Nat → Units} (hescape : ReadsBack escape)
    {entries : List (Units × Json ν)} (h : ∀ e ∈ entries, Reads escape e.2) (hsome : entries ≠ [])
    {fuel : Nat} {rest : Units} (hfuel : 2 * (Json.entriesText escape entries).length ≤ fuel) :
    parseEntries fuel (Json.entriesText escape entries ++ rest) = some (entries, rest) := by
  -- the key and the colon
  have hkey : ∀ (key tail : Units), (expectUnit 34 (quoteUnits escape key ++ 58 :: tail)).bind
      readUnits = some (key, 58 :: tail) := by
    intro key tail
    rw [quoteUnits, List.cons_append, expectUnit_self (by decide)]
    simp [readUnits_escapeUnits hescape]
  induction entries generalizing fuel with
  | nil => exact absurd rfl hsome
  | cons e entries ih =>
    rcases e with ⟨key, v⟩
    cases entries with
    | nil =>
      simp only [Json.entriesText, List.length_append, List.length_cons] at hfuel
      cases fuel with
      | zero => omega
      | succ fuel =>
        have hv := h (key, v) List.mem_cons_self fuel (125 :: rest) (by simp only; omega)
          (endsNumber_cons (by decide) _)
        simp only [Json.entriesText, List.append_assoc, List.cons_append, List.nil_append,
          parseEntries, hkey]
        rw [expectUnit_self (by decide), Option.bind_some, hv]
        dsimp only
        rw [expectUnit_other (by decide) (by decide), expectUnit_self (by decide)]
        rfl
    | cons e entries =>
      simp only [Json.entriesText, List.length_append, List.length_cons] at hfuel
      cases fuel with
      | zero => omega
      | succ fuel =>
        have hv := h (key, v) List.mem_cons_self fuel
          (44 :: (Json.entriesText escape (e :: entries) ++ rest)) (by simp only; omega)
          (endsNumber_cons (by decide) _)
        have hentries : parseEntries fuel (Json.entriesText escape (e :: entries) ++ rest) =
            some (e :: entries, rest) :=
          ih (fun x hx => h x (List.mem_cons_of_mem _ hx)) (by simp) (by omega)
        simp only [Json.entriesText, List.append_assoc, List.cons_append, parseEntries, hkey]
        rw [expectUnit_self (by decide), Option.bind_some, hv]
        dsimp only
        rw [expectUnit_self (by decide)]
        simp only [hentries]
        rfl

/-- **A value is read from its text.** -/
theorem reads_text {escape : Nat → Units} (hescape : ReadsBack escape) {v : Json ν}
    (hwell : v.WellFormed) : Reads escape v := by
  induction v using Json.induct with
  | null =>
    intro fuel rest hfuel _
    cases fuel with
    | zero => simp [Json.text] at hfuel
    | succ fuel => rfl
  | bool b =>
    intro fuel rest hfuel _
    cases fuel with
    | zero => cases b <;> simp [Json.text] at hfuel
    | succ fuel => cases b <;> rfl
  | num x => exact reads_num escape x
  | str s => exact reads_str hescape s
  | arr items ih =>
    cases hwell with
    | arr hitems =>
    have hreads : ∀ v ∈ items, Reads escape v := fun v hv => ih v hv (hitems v hv)
    intro fuel rest hfuel _
    simp only [Json.text, List.length_cons] at hfuel
    cases fuel with
    | zero => omega
    | succ fuel =>
      simp only [Json.text, List.cons_append, parseValue]
      have hskip : ∀ tail : Units, skipSpace (91 :: tail) = 91 :: tail := by
        intro tail
        simp [skipSpace, isSpaceUnit]
      rw [hskip]
      simp only [show ¬ (91 = 34) by decide, ↓reduceIte]
      cases items with
      | nil => rfl
      | cons v items =>
        have hparse : parseItems fuel (Json.itemsText escape (v :: items) ++ rest) =
            some (v :: items, rest) := parseItems_text hreads (by simp) (by omega)
        have hopen : expectUnit 93 (Json.itemsText escape (v :: items) ++ rest) = none := by
          obtain ⟨c, tail, htext, hspace, hbracket, -⟩ := text_head escape v
          cases items with
          | nil =>
            simp only [Json.itemsText, htext, List.cons_append]
            exact expectUnit_other hspace hbracket _
          | cons w items =>
            simp only [Json.itemsText, htext, List.cons_append]
            exact expectUnit_other hspace hbracket _
        rw [hopen, hparse]
        rfl
  | obj entries ih =>
    cases hwell with
    | obj hown hentries =>
    have hreads : ∀ e ∈ entries, Reads escape e.2 := fun e he => ih e he (hentries e he)
    intro fuel rest hfuel _
    simp only [Json.text, List.length_cons] at hfuel
    cases fuel with
    | zero => omega
    | succ fuel =>
      simp only [Json.text, List.cons_append, parseValue]
      have hskip : ∀ tail : Units, skipSpace (123 :: tail) = 123 :: tail := by
        intro tail
        simp [skipSpace, isSpaceUnit]
      rw [hskip]
      simp only [show ¬ (123 = 34) by decide, show ¬ (123 = 91) by decide, ↓reduceIte]
      cases entries with
      | nil => rfl
      | cons e entries =>
        rcases e with ⟨key, v⟩
        have hparse : parseEntries fuel (Json.entriesText escape ((key, v) :: entries) ++ rest) =
            some ((key, v) :: entries, rest) :=
          parseEntries_text hescape hreads (by simp) (by omega)
        have hopen : expectUnit 125 (Json.entriesText escape ((key, v) :: entries) ++ rest) =
            none := by
          cases entries with
          | nil => exact expectUnit_other (by decide) (by decide) _
          | cons e entries => exact expectUnit_other (by decide) (by decide) _
        rw [hopen, hparse]
        simp only [Option.map_some, fromEntries_of_ownOrder hown]

/-- **`JSON.parse` undoes `JSON.stringify`**, and every other rule that is read back. -/
theorem parseJson_text {escape : Nat → Units} (hescape : ReadsBack escape) {v : Json ν}
    (hwell : v.WellFormed) : parseJson (v.text escape) = some v := by
  have hreads := reads_text hescape hwell (2 * (v.text escape).length) [] (Nat.le_refl _)
    endsNumber_nil
  rw [List.append_nil] at hreads
  simp [parseJson, hreads, skipSpace]

/-- The text of a value determines it. -/
theorem stringify_injective {v w : Json ν} (hv : v.WellFormed) (hw : w.WellFormed)
    (h : v.stringify = w.stringify) : v = w := by
  have hread : some v = some w := by
    rw [← parseJson_text readsBack_escapeUnit hv, ← parseJson_text readsBack_escapeUnit hw]
    exact congrArg parseJson h
  exact Option.some.inj hread

end parser

end Effects
