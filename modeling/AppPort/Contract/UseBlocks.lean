import AppPort.Contract.Dsl
import AppPort.Lib.TomlFragment
import Mathlib.Data.List.Induction
import Mathlib.Data.List.TakeWhile

/-!
# Use blocks

A `use` block is meant as sugar for a `use` line and one table. The preprocessor opens the
table before every line of the block, and opens none for a block without lines, so that
only a block of one line is what it stands for. It also reads every line of the source as
its own, those of a multi-line value too.
-/

namespace AppPort

open Toml

/-! ## Reading lines -/

theorem readUseLines_append (file : String) (s : UseState) (lines lines' : List String) :
    readUseLines file s (lines ++ lines') =
      (readUseLines file s lines).bind fun s' => readUseLines file s' lines' :=
  List.foldlM_append

theorem readUseLines_cons (file : String) (s : UseState) (line : String) (lines : List String) :
    readUseLines file s (line :: lines) =
      (readUseLine file s line).bind fun s' => readUseLines file s' lines :=
  List.foldlM_cons

/-- The state with lines of TOML before its own. -/
def UseState.behind (s : UseState) (before : List String) : UseState :=
  { s with tomlLines := before ++ s.tomlLines }

theorem readUseLine_behind (file : String) (s : UseState) (before : List String) (line : String) :
    readUseLine file (s.behind before) line =
      (readUseLine file s line).map fun s' => s'.behind before := by
  obtain ⟨uses, tomlLines, useBlock⟩ := s
  unfold readUseLine UseState.behind
  cases useBlock with
  | some capability =>
    simp only
    split
    · rfl
    · split
      · simp [Except.map]
      · rfl
  | none =>
    simp only
    split
    · split <;> rfl
    · simp [Except.map]

/-- What was handed on before changes nothing of what is read after. -/
theorem readUseLines_behind (file : String) (before : List String) : (lines : List String) →
    (s : UseState) → readUseLines file (s.behind before) lines =
      (readUseLines file s lines).map fun s' => s'.behind before
  | [], _ => rfl
  | line :: lines, s => by
    rw [readUseLines_cons, readUseLines_cons, readUseLine_behind]
    cases readUseLine file s line with
    | error e => rfl
    | ok next => exact readUseLines_behind file before lines next

/-- Lines of TOML are lines. -/
theorem oneLine_header (capability : AppPortCapabilityName) : OneLine (header capability.text) := by
  unfold OneLine
  cases capability <;> decide

theorem oneLine_readUseLine {file : String} {s s' : UseState} {line : String}
    (h : readUseLine file s line = .ok s') (hline : OneLine line)
    (hs : ∀ l ∈ s.tomlLines, OneLine l) : ∀ l ∈ s'.tomlLines, OneLine l := by
  have happend : ∀ {added : List String}, (∀ l ∈ added, OneLine l) →
      ∀ l ∈ s.tomlLines ++ added, OneLine l := by
    intro added hadded l hl
    rcases List.mem_append.mp hl with hl | hl
    · exact hs l hl
    · exact hadded l hl
  unfold readUseLine at h
  simp only at h
  split at h
  · next capability hblock =>
    split at h
    · obtain rfl := Except.ok.inj h
      exact hs
    · split at h
      · obtain rfl := Except.ok.inj h
        refine happend fun l hl => ?_
        rcases List.mem_cons.mp hl with rfl | hl
        · exact oneLine_header capability
        · obtain rfl := List.mem_singleton.mp hl
          exact hline
      · obtain rfl := Except.ok.inj h
        exact hs
  · split at h
    · split at h
      · cases h
      · obtain rfl := Except.ok.inj h
        exact hs
    · obtain rfl := Except.ok.inj h
      refine happend fun l hl => ?_
      obtain rfl := List.mem_singleton.mp hl
      exact hline

theorem oneLine_readUseLines {file : String} : (lines : List String) → {s s' : UseState} →
    readUseLines file s lines = .ok s' → (∀ l ∈ lines, OneLine l) →
    (∀ l ∈ s.tomlLines, OneLine l) → ∀ l ∈ s'.tomlLines, OneLine l
  | [], s, s', h, _, hs => by
    obtain rfl := Except.ok.inj h
    exact hs
  | line :: lines, s, s', h, hlines, hs => by
    rw [readUseLines_cons] at h
    cases hnext : readUseLine file s line with
    | error e =>
      rw [hnext] at h
      cases h
    | ok next =>
      rw [hnext] at h
      exact oneLine_readUseLines lines h (fun l hl => hlines l (List.mem_cons_of_mem _ hl))
        (oneLine_readUseLine hnext (hlines line List.mem_cons_self) hs)

/-! ## Lines that are trimmed -/

theorem jsTrim_toList (s : String) : (jsTrim s).toList =
    ((s.toList.dropWhile isJsWhitespace).reverse.dropWhile isJsWhitespace).reverse := by
  unfold jsTrim
  exact String.toList_ofList

/-- White space at the end goes, and nothing before it. -/
theorem dropEnd_cons {p : Char → Bool} {c : Char} (hc : p c = false) (rest : List Char) :
    ∃ tail, ((c :: rest).reverse.dropWhile p).reverse = c :: tail := by
  rw [List.reverse_cons]
  cases hend : rest.reverse.dropWhile p with
  | nil =>
    refine ⟨[], ?_⟩
    rw [List.dropWhile_append, hend]
    simp [hc]
  | cons d ds =>
    refine ⟨(d :: ds).reverse, ?_⟩
    rw [List.dropWhile_append, hend]
    simp

theorem isJsWhitespace_of_blank {c : Char} (h : isBlankChar c = true) : isJsWhitespace c = true := by
  unfold isBlankChar at h
  simp only [Bool.or_eq_true, beq_iff_eq] at h
  rcases h with (rfl | rfl) | rfl <;> decide

/-- A line that begins with no white space is not trimmed to nothing. -/
theorem jsTrim_of_first {line : String} {c : Char} {rest : List Char}
    (h : line.toList.dropWhile isBlankChar = c :: rest) (hc : isJsWhitespace c = false) :
    ∃ tail, (jsTrim line).toList = c :: tail := by
  have hdrop : line.toList.dropWhile isJsWhitespace = c :: rest := by
    revert h
    generalize line.toList = chars
    induction chars with
    | nil => intro h; cases h
    | cons d ds ih =>
      intro h
      cases hd : isBlankChar d with
      | true =>
        rw [List.dropWhile_cons_of_pos hd] at h
        rw [List.dropWhile_cons_of_pos (isJsWhitespace_of_blank hd)]
        exact ih h
      | false =>
        rw [List.dropWhile_cons_of_neg (by simp [hd])] at h
        rw [← h, List.dropWhile_cons_of_neg]
        obtain ⟨rfl, -⟩ := List.cons.inj h
        simp [hc]
  rw [jsTrim_toList, hdrop]
  exact dropEnd_cons hc rest

/-- What is no white space is not trimmed off. -/
theorem mem_jsTrim {line : String} {c : Char} (hc : isJsWhitespace c = false) (h : c ∈ line.toList) :
    c ∈ (jsTrim line).toList := by
  have hdrop : ∀ chars : List Char, c ∈ chars → c ∈ chars.dropWhile isJsWhitespace := by
    intro chars
    induction chars with
    | nil => exact fun h => h
    | cons d ds ih =>
      intro h
      cases hd : isJsWhitespace d with
      | true =>
        rw [List.dropWhile_cons_of_pos hd]
        rcases List.mem_cons.mp h with rfl | h
        · rw [hc] at hd
          cases hd
        · exact ih h
      | false =>
        rw [List.dropWhile_cons_of_neg (by simp [hd])]
        exact h
  rw [jsTrim_toList, List.mem_reverse]
  exact hdrop _ (List.mem_reverse.mpr (hdrop _ h))

/-- A `use` line has no equals sign. -/
theorem useLine_of_equals {line : String} (h : '=' ∈ line.toList) : useLine line = none := by
  unfold useLine
  split
  · next space rest hline =>
    simp only
    split
    · next hword =>
      rw [Bool.and_eq_true] at hword
      -- the sign is in what follows the white space, and no name has it
      have hrest : '=' ∈ rest := by
        rw [hline] at h
        simp only [List.mem_cons] at h
        rcases h with h | h | h | h | h
        · exact absurd h (by decide)
        · exact absurd h (by decide)
        · exact absurd h (by decide)
        · rw [← h] at hword
          exact absurd hword.1 (by decide)
        · exact h
      have hskip : ∀ {p : Char → Bool} {chars : List Char}, p '=' = false → '=' ∈ chars →
          '=' ∈ chars.dropWhile p := by
        intro p chars hp
        induction chars with
        | nil => exact fun h => h
        | cons d ds ih =>
          intro hmem
          cases hd : p d with
          | true =>
            rw [List.dropWhile_cons_of_pos hd]
            rcases List.mem_cons.mp hmem with rfl | hmem
            · rw [hp] at hd
              cases hd
            · exact ih hmem
          | false =>
            rw [List.dropWhile_cons_of_neg (by simp [hd])]
            exact hmem
      have htail : '=' ∈ (rest.dropWhile isJsWhitespace).dropWhile isUseChar :=
        hskip (by decide) (hskip (by decide) hrest)
      split
      · next hnil =>
        rw [hnil] at htail
        cases htail
      · split
        · next hbrace =>
          have hmem := hskip (p := isJsWhitespace) (by decide) htail
          rw [hbrace] at hmem
          exact absurd (List.mem_singleton.mp hmem) (by decide)
        · rfl
    · rfl
  · rfl

/-! ## Blocks -/

/-- A block as it is written: the line that opens it, lines that are key/value pairs or say
nothing, and the line that closes it. -/
structure UseBlock where
  capability : AppPortCapabilityName
  opening : String
  body : List String
  closing : String
  opens : useLine (jsTrim opening) = some (capability.text, true)
  lines : ∀ line ∈ body, IsEntryLine line ∨ isBlankLine line = true
  closes : jsTrim closing = "\x7d"
  single : ∀ line ∈ opening :: (body ++ [closing]), OneLine line

namespace UseBlock

variable (block : UseBlock)

/-- The block. -/
def written : List String := block.opening :: (block.body ++ [block.closing])

/-- What it stands for: a `use` line, and its table. -/
def table : List String :=
  ("use " ++ block.capability.text) :: header block.capability.text :: block.body

/-- The key/value lines. -/
def entries : List String := block.body.filter fun line => !isBlankLine line

end UseBlock

theorem isKeyChar_range {c : Char} (h : isKeyChar c = true) : 33 ≤ c.toNat ∧ c.toNat ≤ 126 := by
  replace h : (((decide (65 ≤ c.val ∧ c.val ≤ 90) || (decide (97 ≤ c.val) && decide (c.val ≤ 122))) ||
      (decide (48 ≤ c.val) && decide (c.val ≤ 57))) || c == '_' || c == '-') = true := h
  simp only [Bool.or_eq_true, Bool.and_eq_true, decide_eq_true_eq, beq_iff_eq,
    UInt32.le_iff_toNat_le] at h
  rcases h with (h | rfl) | rfl
  · simp at h
    have hval : c.toNat = c.val.toNat := rfl
    omega
  · decide
  · decide

theorem isJsWhitespace_of_key {c : Char} (h : isKeyChar c = true ∨ c = '"' ∨ c = '\'') :
    isJsWhitespace c = false := by
  rcases h with h | rfl | rfl
  · obtain ⟨hlow, hhigh⟩ := isKeyChar_range h
    unfold isJsWhitespace
    simp
    omega
  · decide
  · decide

/-- A key/value line begins with its key, trimmed or not. -/
theorem jsTrim_entry {line : String} (h : IsEntryLine line) :
    (∃ c tail, (jsTrim line).toList = c :: tail ∧ c ≠ '#') ∧ '=' ∈ (jsTrim line).toList := by
  obtain ⟨c, rest, hfirst, hkey⟩ := h.key
  obtain ⟨tail, htail⟩ := jsTrim_of_first hfirst (isJsWhitespace_of_key hkey)
  refine ⟨⟨c, tail, htail, ?_⟩, mem_jsTrim (by decide) h.equals⟩
  rintro rfl
  rcases hkey with hkey | hkey | hkey <;> revert hkey <;> decide

/-- A blank line is trimmed to nothing, or to a comment. -/
theorem jsTrim_blank {line : String} (h : isBlankLine line = true) :
    jsTrim line = "" ∨ ∃ tail, (jsTrim line).toList = '#' :: tail := by
  unfold isBlankLine at h
  split at h
  · next hnil =>
    left
    have hall : line.toList.dropWhile isJsWhitespace = [] := by
      rw [List.dropWhile_eq_nil_iff] at hnil ⊢
      exact fun c hc => isJsWhitespace_of_blank (hnil c hc)
    rw [← String.toList_eq_nil_iff, jsTrim_toList, hall]
    rfl
  · next c rest hfirst =>
    right
    obtain rfl : c = '#' := by simpa using h
    exact jsTrim_of_first hfirst (by decide)

theorem not_blank_of_entry {line : String} (h : IsEntryLine line) : isBlankLine line = false := by
  obtain ⟨c, rest, hfirst, hkey⟩ := h.key
  unfold isBlankLine
  rw [hfirst]
  show (c == '#') = false
  rw [beq_eq_false_iff_ne]
  rintro rfl
  rcases hkey with hkey | hkey | hkey <;> revert hkey <;> decide

/-- What the preprocessor makes of a line of a block. -/
def blockLine (capability : AppPortCapabilityName) (line : String) : List String :=
  if isBlankLine line then [] else [header capability.text, line]

theorem readUseLine_block {file : String} {s : UseState} {capability : AppPortCapabilityName}
    (hs : s.useBlock = some capability) {line : String}
    (h : IsEntryLine line ∨ isBlankLine line = true) :
    readUseLine file s line = .ok { s with tomlLines := s.tomlLines ++ blockLine capability line } := by
  obtain ⟨uses, tomlLines, useBlock⟩ := s
  obtain rfl := hs
  unfold readUseLine blockLine
  simp only
  rcases h with hentry | hblank
  · obtain ⟨⟨c, tail, htail, hc⟩, hequals⟩ := jsTrim_entry hentry
    rw [if_neg, if_pos, not_blank_of_entry hentry]
    · rfl
    · refine ⟨fun hempty => ?_, ?_⟩
      · rw [hempty] at htail
        cases htail
      · rw [htail]
        exact fun heq => hc (Option.some.inj heq)
    · intro hclose
      rw [hclose] at hequals
      revert hequals
      decide
  · rw [if_pos hblank, List.append_nil]
    rcases jsTrim_blank hblank with hempty | ⟨tail, htail⟩
    · rw [hempty, if_neg (by decide), if_neg (by simp)]
    · have hclose : jsTrim line ≠ "\x7d" := by
        intro hclose
        rw [hclose] at htail
        exact absurd (List.cons.inj htail).1 (by decide)
      rw [if_neg hclose, if_neg]
      rw [htail]
      simp

/-- The lines of a block. -/
theorem readUseLines_block {file : String} {capability : AppPortCapabilityName} : (body : List String) →
    {s : UseState} → s.useBlock = some capability →
    (∀ line ∈ body, IsEntryLine line ∨ isBlankLine line = true) →
    readUseLines file s body =
      .ok { s with tomlLines := s.tomlLines ++ body.flatMap (blockLine capability) }
  | [], s, _, _ => by
    rw [List.flatMap_nil, List.append_nil]
    rfl
  | line :: body, s, hs, h => by
    rw [readUseLines_cons, readUseLine_block hs (h line List.mem_cons_self)]
    refine (readUseLines_block body (s := { s with
      tomlLines := s.tomlLines ++ blockLine capability line }) hs
      fun l hl => h l (List.mem_cons_of_mem _ hl)).trans ?_
    rw [List.flatMap_cons, List.append_assoc]

theorem named_text (capability : AppPortCapabilityName) :
    AppPortCapabilityName.named capability.text = some capability := by
  cases capability <;> decide

/-- **What the preprocessor makes of a block.** -/
theorem readUseLines_written (file : String) {s : UseState} (hs : s.useBlock = none) (block : UseBlock) :
    readUseLines file s block.written = .ok {
      uses := s.uses.insert block.capability
      tomlLines := s.tomlLines ++ block.body.flatMap (blockLine block.capability)
      useBlock := none } := by
  have hopen : readUseLine file s block.opening =
      .ok { s with uses := s.uses.insert block.capability, useBlock := some block.capability } := by
    unfold readUseLine
    simp only [hs, block.opens, named_text]
    rfl
  rw [UseBlock.written, readUseLines_cons, hopen]
  show readUseLines file _ (block.body ++ [block.closing]) = _
  rw [readUseLines_append, readUseLines_block block.body rfl block.lines]
  show readUseLines file _ [block.closing] = _
  rw [readUseLines_cons]
  unfold readUseLine
  simp only [block.closes, if_true]
  rfl

theorem useLine_of_first {line : String} {c : Char} {tail : List Char} (h : line.toList = c :: tail)
    (hc : c ≠ 'u') : useLine line = none := by
  unfold useLine
  split
  · next space rest hline =>
    rw [h] at hline
    exact absurd (List.cons.inj hline).1 hc
  · rfl

/-- A line that is no `use` line, outside a block, is handed on. -/
theorem readUseLine_other {file : String} {s : UseState} (hs : s.useBlock = none) {line : String}
    (h : useLine (jsTrim line) = none) :
    readUseLine file s line = .ok { s with tomlLines := s.tomlLines ++ [line] } := by
  unfold readUseLine
  simp only [hs, h]

theorem useLine_body {line : String} (h : IsEntryLine line ∨ isBlankLine line = true) :
    useLine (jsTrim line) = none := by
  rcases h with hentry | hblank
  · exact useLine_of_equals (jsTrim_entry hentry).2
  · rcases jsTrim_blank hblank with hempty | ⟨tail, htail⟩
    · rw [hempty]
      rfl
    · exact useLine_of_first htail (by decide)

/-- Lines that are no `use` lines are handed on as they stand. -/
theorem readUseLines_others {file : String} : (lines : List String) → {s : UseState} →
    s.useBlock = none → (∀ line ∈ lines, useLine (jsTrim line) = none) →
    readUseLines file s lines = .ok { s with tomlLines := s.tomlLines ++ lines }
  | [], s, _, _ => by
    rw [List.append_nil]
    rfl
  | line :: lines, s, hs, h => by
    rw [readUseLines_cons, readUseLine_other hs (h line List.mem_cons_self)]
    refine (readUseLines_others lines (s := { s with tomlLines := s.tomlLines ++ [line] }) hs
      fun l hl => h l (List.mem_cons_of_mem _ hl)).trans ?_
    rw [List.append_assoc]
    rfl

/-- A `use` line declares its capability. -/
theorem readUseLine_use (file : String) {s : UseState} (hs : s.useBlock = none)
    (capability : AppPortCapabilityName) : readUseLine file s ("use " ++ capability.text) =
      .ok { s with uses := s.uses.insert capability } := by
  have hline : useLine (jsTrim ("use " ++ capability.text)) = some (capability.text, false) := by
    cases capability <;> decide
  obtain ⟨uses, tomlLines, useBlock⟩ := s
  obtain rfl := hs
  unfold readUseLine
  simp only [hline, named_text]
  rfl

/-- **What the preprocessor makes of what a block stands for.** -/
theorem readUseLines_table (file : String) {s : UseState} (hs : s.useBlock = none) (block : UseBlock) :
    readUseLines file s block.table = .ok {
      uses := s.uses.insert block.capability
      tomlLines := s.tomlLines ++ header block.capability.text :: block.body
      useBlock := none } := by
  have hheader : useLine (jsTrim (header block.capability.text)) = none := by
    cases block.capability <;> decide
  rw [UseBlock.table, readUseLines_cons, readUseLine_use file hs]
  show readUseLines file _ (header block.capability.text :: block.body) = _
  rw [readUseLines_others _ (by exact hs)]
  · rw [hs]
  · intro line hline
    rcases List.mem_cons.mp hline with rfl | hline
    · exact hheader
    · exact useLine_body (block.lines line hline)

/-! ## What a block stands for -/

/-- The lines leave the preprocessor outside a block, and the parser outside a value. -/
def Outside (file : String) (lines : List String) : Prop :=
  ∀ s, readUseLines file {} lines = .ok s →
    s.useBlock = none ∧ Mark.top.afterLines s.tomlLines = Mark.top

/-- Replacing the block by what it stands for changes the result of no source. -/
def UseBlock.IsSugar (parse : Parser) (file : String) (block : UseBlock) : Prop :=
  ∀ source source' before rest, Outside file before →
    splitLines source = before ++ (block.written ++ rest) →
    splitLines source' = before ++ (block.table ++ rest) →
    Agrees (parseAppPortConfigText parse source file) (parseAppPortConfigText parse source' file)

/-- What the block stands for is an error in every source. -/
def UseBlock.Refused (parse : Parser) (file : String) (block : UseBlock) : Prop :=
  ∀ source before rest, Outside file before → splitLines source = before ++ (block.table ++ rest) →
    ∃ e, parseAppPortConfigText parse source file = .error e

section around

variable {parse : Parser} {file : String}

/-- Lines that are read in three parts. -/
theorem readUseLines_around {before piece rest lines : List String} {s : UseState}
    {uses : List AppPortCapabilityName} (hbefore : readUseLines file {} before = .ok s)
    (hpiece : readUseLines file s piece =
      .ok { uses, tomlLines := s.tomlLines ++ lines, useBlock := none }) :
    readUseLines file {} (before ++ (piece ++ rest)) =
      (readUseLines file { uses } rest).map fun s' => s'.behind (s.tomlLines ++ lines) := by
  rw [readUseLines_append, hbefore]
  show readUseLines file s (piece ++ rest) = _
  rw [readUseLines_append, hpiece, ← readUseLines_behind]
  simp [UseState.behind, Except.bind]

/-- A source whose lines are read in three parts. -/
theorem parse_around {source : String} {before piece rest lines : List String} {s : UseState}
    {uses : List AppPortCapabilityName} (hsource : splitLines source = before ++ (piece ++ rest))
    (hbefore : readUseLines file {} before = .ok s)
    (hpiece : readUseLines file s piece =
      .ok { uses, tomlLines := s.tomlLines ++ lines, useBlock := none }) :
    parseAppPortConfigText parse source file =
      (readUseLines file { uses } rest).bind fun s' =>
        readToml parse file (s'.behind (s.tomlLines ++ lines)) := by
  show (readUseLines file {} (splitLines source)).bind _ = _
  rw [hsource, readUseLines_around hbefore hpiece]
  cases readUseLines file { uses } rest <;> rfl

/-- Texts that are read alike make the same contract. -/
theorem readToml_agrees {s s' : UseState} (huses : s.uses = s'.uses)
    (h : Agrees (parse (joinLines s.tomlLines)) (parse (joinLines s'.tomlLines))) :
    Agrees (readToml parse file s) (readToml parse file s') := by
  unfold readToml
  rw [huses]
  cases hread : parse (joinLines s.tomlLines) with
  | ok raw =>
    rw [hread] at h
    cases hread' : parse (joinLines s'.tomlLines) with
    | ok raw' =>
      rw [hread'] at h
      obtain rfl : raw = raw' := h
      exact Agrees.refl _
    | error e =>
      rw [hread'] at h
      exact absurd h id
  | error e =>
    rw [hread] at h
    obtain ⟨e', hread'⟩ := h.error
    rw [hread']
    trivial

/-- Two pieces whose lines are read alike, whatever follows, are read alike. -/
theorem parse_agrees {source source' : String} {before piece piece' rest lines lines' : List String}
    {s : UseState} {uses : List AppPortCapabilityName}
    (hsource : splitLines source = before ++ (piece ++ rest))
    (hsource' : splitLines source' = before ++ (piece' ++ rest))
    (hbefore : readUseLines file {} before = .ok s)
    (hpiece : readUseLines file s piece =
      .ok { uses, tomlLines := s.tomlLines ++ lines, useBlock := none })
    (hpiece' : readUseLines file s piece' =
      .ok { uses, tomlLines := s.tomlLines ++ lines', useBlock := none })
    (h : ∀ more, (∀ l ∈ more, OneLine l) →
      Agrees (parse (joinLines (s.tomlLines ++ lines ++ more)))
        (parse (joinLines (s.tomlLines ++ lines' ++ more)))) :
    Agrees (parseAppPortConfigText parse source file) (parseAppPortConfigText parse source' file) := by
  rw [parse_around hsource hbefore hpiece, parse_around hsource' hbefore hpiece']
  cases hrest : readUseLines file { uses } rest with
  | error e => exact trivial
  | ok s' =>
    refine readToml_agrees rfl (h s'.tomlLines ?_)
    refine oneLine_readUseLines rest hrest (fun l hl => ?_) (fun l hl => nomatch hl)
    refine oneLine_of_mem_splitLines (?_ : _ ∈ splitLines source)
    rw [hsource]
    exact List.mem_append_right _ (List.mem_append_right _ hl)

end around

/-- What is handed on of a block: its table is opened for each key/value line. -/
theorem flatMap_blockLine (capability : AppPortCapabilityName) : (body : List String) →
    body.flatMap (blockLine capability) =
      (body.filter fun line => !isBlankLine line).flatMap fun line => [header capability.text, line]
  | [] => rfl
  | line :: body => by
    rw [List.flatMap_cons, flatMap_blockLine capability body, blockLine]
    cases hblank : isBlankLine line with
    | true => simp [hblank]
    | false => simp [hblank]

theorem isBareKey_text (capability : AppPortCapabilityName) : isBareKey capability.text = true := by
  cases capability <;> decide

theorem after_header (capability : AppPortCapabilityName) :
    Mark.top.after (header capability.text) = Mark.top := by
  cases capability <;> decide

namespace UseBlock

variable {parse : Parser} {file : String} {block : UseBlock}

theorem entry_of_mem {line : String} (h : line ∈ block.body) (hblank : isBlankLine line = false) :
    IsEntryLine line := by
  rcases block.lines line h with hentry | hcontra
  · exact hentry
  · rw [hblank] at hcontra
    cases hcontra

theorem oneLine_body {line : String} (h : line ∈ block.body) : OneLine line :=
  block.single line (List.mem_cons_of_mem _ (List.mem_append_left _ h))

/-- **A block of one line is what it stands for**: its blank lines are all that is handed on
differently. -/
theorem isSugar_of_one (hparse : Lawful parse) {line : String} (h : block.entries = [line]) :
    block.IsSugar parse file := by
  intro source source' before rest houtside hsource hsource'
  cases hbefore : readUseLines file {} before with
  | error e =>
    have herror : ∀ {text : String} {piece : List String}, splitLines text = before ++ piece →
        parseAppPortConfigText parse text file = .error e := by
      intro text piece htext
      show (readUseLines file {} (splitLines text)).bind _ = _
      rw [htext, readUseLines_append, hbefore]
      rfl
    rw [herror hsource, herror hsource']
    trivial
  | ok s =>
    obtain ⟨hs, hmark⟩ := houtside s hbefore
    have hlines : ∀ l ∈ s.tomlLines, OneLine l := by
      refine oneLine_readUseLines before hbefore (fun l hl => ?_) (fun l hl => nomatch hl)
      refine oneLine_of_mem_splitLines (?_ : _ ∈ splitLines source)
      rw [hsource]
      exact List.mem_append_left _ hl
    refine parse_agrees hsource hsource' hbefore (readUseLines_written file hs block)
      (readUseLines_table file hs block) fun more hmore => ?_
    obtain ⟨above, below, hbody, habove, hline, hbelow⟩ := List.filter_eq_cons_iff.mp h
    rw [List.filter_eq_nil_iff] at hbelow
    simp only [Bool.not_eq_true, Bool.not_eq_false'] at habove hline hbelow
    have hmemAbove : ∀ l ∈ above, l ∈ block.body := fun l hl => by
      rw [hbody]
      exact List.mem_append_left _ hl
    have hmemBelow : ∀ l ∈ below, l ∈ block.body := fun l hl => by
      rw [hbody]
      exact List.mem_append_right _ (List.mem_cons_of_mem _ hl)
    have hmemLine : line ∈ block.body := by
      rw [hbody]
      exact List.mem_append_right _ List.mem_cons_self
    have hentry : IsEntryLine line := block.entry_of_mem hmemLine (by simpa using hline)
    have hopened : ∀ l ∈ s.tomlLines ++ [header block.capability.text], OneLine l := by
      intro l hl
      rcases List.mem_append.mp hl with hl | hl
      · exact hlines l hl
      · obtain rfl := List.mem_singleton.mp hl
        exact oneLine_header _
    have hpair : ∀ l ∈ s.tomlLines ++ [header block.capability.text, line], OneLine l := by
      intro l hl
      rw [List.append_cons] at hl
      rcases List.mem_append.mp hl with hl | hl
      · exact hopened l hl
      · obtain rfl := List.mem_singleton.mp hl
        exact oneLine_body hmemLine
    -- the blank lines above the one line, and those below it
    have hfirst := hparse.blanks above (s.tomlLines ++ [header block.capability.text])
      (line :: (below ++ more)) (fun l hl => by simpa using habove l hl)
      (fun l hl => oneLine_body (hmemAbove l hl)) hopened
      (by
        intro l hl
        rcases List.mem_cons.mp hl with rfl | hl
        · exact oneLine_body hmemLine
        · rcases List.mem_append.mp hl with hl | hl
          · exact oneLine_body (hmemBelow l hl)
          · exact hmore l hl)
      (by simp) (by simp [Mark.afterLines_append, hmark, after_header])
    have hsecond := hparse.blanks below (s.tomlLines ++ [header block.capability.text, line])
      more (fun l hl => by simpa using hbelow l hl)
      (fun l hl => oneLine_body (hmemBelow l hl)) hpair hmore (by simp)
      (by simp [Mark.afterLines_append, hmark, after_header, hentry.whole])
    have hwritten : block.body.flatMap (blockLine block.capability) =
        [header block.capability.text, line] := by
      rw [flatMap_blockLine]
      show block.entries.flatMap _ = _
      rw [h]
      rfl
    have hboth := (hfirst.trans (by simpa using hsecond)).symm
    rw [hwritten, hbody]
    simpa using hboth

/-- The table of a block with several lines is opened twice. -/
theorem refused_of_several (hparse : Lawful parse) {first second : String} {others : List String}
    (h : block.entries = first :: second :: others) {source : String} {before rest : List String}
    (houtside : Outside file before) (hsource : splitLines source = before ++ (block.written ++ rest)) :
    ∃ e, parseAppPortConfigText parse source file = .error e := by
  cases hbefore : readUseLines file {} before with
  | error e =>
    refine ⟨e, ?_⟩
    show (readUseLines file {} (splitLines source)).bind _ = _
    rw [hsource, readUseLines_append, hbefore]
    rfl
  | ok s =>
    obtain ⟨hs, hmark⟩ := houtside s hbefore
    rw [parse_around hsource hbefore (readUseLines_written file hs block)]
    cases hrest : readUseLines file { uses := s.uses.insert block.capability } rest with
    | error e => exact ⟨e, rfl⟩
    | ok s' =>
      have hread : readUseLines file {} (splitLines source) = .ok (s'.behind (s.tomlLines ++
          block.body.flatMap (blockLine block.capability))) := by
        rw [hsource, readUseLines_around hbefore (readUseLines_written file hs block), hrest]
        rfl
      have hone := oneLine_readUseLines _ hread (fun l hl => oneLine_of_mem_splitLines hl)
        (fun l hl => nomatch hl)
      have hmem : first ∈ block.entries := by
        rw [h]
        exact List.mem_cons_self
      obtain ⟨hfirst, hblank⟩ := List.mem_filter.mp hmem
      have hentry : IsEntryLine first := block.entry_of_mem hfirst (by simpa using hblank)
      have hwritten : block.body.flatMap (blockLine block.capability) =
          header block.capability.text :: ([first] ++ header block.capability.text ::
            (second :: others.flatMap fun line => [header block.capability.text, line])) := by
        rw [flatMap_blockLine]
        show block.entries.flatMap _ = _
        rw [h]
        rfl
      have htwice := hparse.twice (joinLines (s'.behind (s.tomlLines ++ block.body.flatMap
          (blockLine block.capability))).tomlLines) block.capability.text s.tomlLines [first]
        (second :: (others.flatMap fun line => [header block.capability.text, line]) ++ s'.tomlLines)
        (isBareKey_text _) (by
          rw [splitLines_joinLines (by simp [UseState.behind, hwritten]) hone, UseState.behind, hwritten]
          simp) hmark (by simp [Mark.afterLines_append, hmark, after_header, hentry.whole])
      obtain ⟨error, herror⟩ := htwice
      refine ⟨⟨file, "syntax", .str error, "valid AppPort TOML"⟩, ?_⟩
      show readToml parse file _ = _
      unfold readToml
      rw [herror]

/-- A contract of one open table. -/
theorem normalizeConfig_opened (capability : AppPortCapabilityName) (file : String) :
    ∃ config, normalizeConfig [(capability.text, .table [])] [capability] file = .ok config := by
  cases capability <;> exact ⟨_, rfl⟩

theorem outside_nil (file : String) : Outside file [] := by
  intro s hs
  obtain rfl := Except.ok.inj hs
  exact ⟨rfl, rfl⟩

/-- **A block without lines is not what it stands for**: its table may be opened below. -/
theorem not_isSugar_of_none (hparse : Lawful parse) (h : block.entries = []) :
    ¬ block.IsSugar parse file := by
  intro hsugar
  have hheader : useLine (jsTrim (header block.capability.text)) = none := by
    cases block.capability <;> decide
  have hsource : splitLines (joinLines (block.written ++ [header block.capability.text])) =
      block.written ++ [header block.capability.text] := by
    refine splitLines_joinLines (by simp) fun l hl => ?_
    rcases List.mem_append.mp hl with hl | hl
    · exact block.single l hl
    · obtain rfl := List.mem_singleton.mp hl
      exact oneLine_header _
  have hsource' : splitLines (joinLines (block.table ++ [header block.capability.text])) =
      block.table ++ [header block.capability.text] := by
    refine splitLines_joinLines (by simp) fun l hl => ?_
    rcases List.mem_append.mp hl with hl | hl
    · rcases List.mem_cons.mp hl with rfl | hl
      · unfold OneLine
        cases block.capability <;> decide
      · rcases List.mem_cons.mp hl with rfl | hl
        · exact oneLine_header _
        · exact oneLine_body hl
    · obtain rfl := List.mem_singleton.mp hl
      exact oneLine_header _
  have hagrees := hsugar _ _ [] [header block.capability.text] (outside_nil file) hsource hsource'
  have hwritten : block.body.flatMap (blockLine block.capability) = [] := by
    rw [flatMap_blockLine]
    show block.entries.flatMap _ = _
    rw [h]
    rfl
  have hrest : ∀ uses : List AppPortCapabilityName,
      readUseLines file { uses } [header block.capability.text] =
        .ok { uses, tomlLines := [header block.capability.text] } := fun uses => by
    rw [readUseLines_others _ rfl (by simpa using hheader)]
    rfl
  -- the source is accepted
  obtain ⟨config, hconfig⟩ := normalizeConfig_opened block.capability file
  have haccepted : parseAppPortConfigText parse
      (joinLines (block.written ++ [header block.capability.text])) file = .ok config := by
    rw [parse_around (show _ = [] ++ _ from hsource) rfl (readUseLines_written file rfl block), hrest]
    show readToml parse file _ = _
    unfold readToml
    rw [hparse.header _ block.capability.text (isBareKey_text _)]
    · exact hconfig
    · simp only [UseState.behind, hwritten]
      exact splitLines_joinLines (by simp) (by simpa using oneLine_header block.capability)
  -- and what it stands for opens the table twice
  have hbody : ∀ l ∈ block.body, isBlankLine l = true := by
    have hnone := List.filter_eq_nil_iff.mp h
    intro l hl
    simpa using hnone l hl
  have hmark : Mark.top.afterLines block.body = Mark.top := by
    revert hbody
    generalize block.body = body
    induction body with
    | nil => exact fun _ => rfl
    | cons l body ih =>
      intro hbody
      rw [Mark.afterLines_cons, after_blank (hbody l List.mem_cons_self)]
      exact ih fun l' hl' => hbody l' (List.mem_cons_of_mem _ hl')
  rw [haccepted] at hagrees
  obtain ⟨error, herror⟩ := hparse.twice
    (joinLines (header block.capability.text :: (block.body ++ [header block.capability.text])))
    block.capability.text [] block.body [] (isBareKey_text _)
    (splitLines_joinLines (by simp) (by
      intro l hl
      rcases List.mem_cons.mp hl with rfl | hl
      · exact oneLine_header _
      · rcases List.mem_append.mp hl with hl | hl
        · exact oneLine_body hl
        · obtain rfl := List.mem_singleton.mp hl
          exact oneLine_header _)) rfl (by simp [after_header, hmark])
  have hrefused : parseAppPortConfigText parse
      (joinLines (block.table ++ [header block.capability.text])) file =
        .error ⟨file, "syntax", .str error, "valid AppPort TOML"⟩ := by
    rw [parse_around (show _ = [] ++ _ from hsource') rfl (readUseLines_table file rfl block), hrest]
    show readToml parse file _ = _
    unfold readToml
    have hlines : (UseState.behind { uses := List.insert block.capability []
                                     tomlLines := [header block.capability.text] }
        ([] ++ header block.capability.text :: block.body)).tomlLines =
          header block.capability.text :: (block.body ++ [header block.capability.text]) := by
      simp [UseState.behind]
    simp only [hlines, herror]
  rw [hrefused] at hagrees
  exact hagrees

/-- **When a block is what it stands for.** -/
theorem isSugar_iff (hparse : Lawful parse) : block.IsSugar parse file ↔
    block.entries.length = 1 ∨ (2 ≤ block.entries.length ∧ block.Refused parse file) := by
  constructor
  · intro hsugar
    cases hentries : block.entries with
    | nil => exact absurd hsugar (not_isSugar_of_none hparse hentries)
    | cons first others =>
      cases others with
      | nil => exact .inl rfl
      | cons second others =>
        refine .inr ⟨by simp, fun source before rest houtside hsource => ?_⟩
        have hwritten : splitLines (joinLines (before ++ (block.written ++ rest))) =
            before ++ (block.written ++ rest) := by
          refine splitLines_joinLines (by simp [written]) fun l hl => ?_
          have hmem : ∀ l ∈ before ++ rest, OneLine l := fun l hl => by
            refine oneLine_of_mem_splitLines (?_ : _ ∈ splitLines source)
            rw [hsource]
            rcases List.mem_append.mp hl with hl | hl
            · exact List.mem_append_left _ hl
            · exact List.mem_append_right _ (List.mem_append_right _ hl)
          rcases List.mem_append.mp hl with hl | hl
          · exact hmem l (List.mem_append_left _ hl)
          · rcases List.mem_append.mp hl with hl | hl
            · exact block.single l hl
            · exact hmem l (List.mem_append_right _ hl)
        -- the written form is an error, so what it stands for is one
        obtain ⟨e, he⟩ := refused_of_several hparse hentries houtside hwritten
        have hagrees := hsugar _ source before rest houtside hwritten hsource
        rw [he] at hagrees
        exact hagrees.error
  · rintro (hone | ⟨hseveral, hrefused⟩)
    · obtain ⟨line, hline⟩ := List.length_eq_one_iff.mp hone
      exact isSugar_of_one hparse hline
    · intro source source' before rest houtside hsource hsource'
      obtain ⟨e', he'⟩ := hrefused source' before rest houtside hsource'
      cases hentries : block.entries with
      | nil =>
        rw [hentries] at hseveral
        exact absurd hseveral (by simp)
      | cons first others =>
        cases others with
        | nil =>
          rw [hentries] at hseveral
          exact absurd hseveral (by simp)
        | cons second others =>
          obtain ⟨e, he⟩ := refused_of_several hparse hentries houtside hsource
          rw [he, he']
          trivial

end UseBlock

/-! ## Lines of a multi-line value -/

/-- A source as TOML with `use` lines: what is open at a line, and the block it is in. -/
structure SourceMark where
  mark : Mark := Mark.top
  useBlock : Option AppPortCapabilityName := none

/-- A line that begins inside a multi-line value is part of it; any other line is a `use`
line, a line that closes a block, or a line of TOML. -/
def SourceMark.next (file : String) (m : SourceMark) (rawLine : String) :
    Except AppPortConfigError SourceMark :=
  if m.mark ≠ Mark.top then .ok { m with mark := m.mark.after rawLine }
  else
    match m.useBlock with
    | some capability =>
      if jsTrim rawLine = "\x7d" then .ok { m with useBlock := none }
      else .ok { mark := m.mark.after rawLine, useBlock := some capability }
    | none =>
      match useLine (jsTrim rawLine) with
      | some (name, opens) =>
        match AppPortCapabilityName.named name with
        | none => .error ⟨file, "use", .str name, capabilityNames⟩
        | some capability => .ok { m with useBlock := if opens then some capability else none }
      | none => .ok { m with mark := m.mark.after rawLine }

def SourceMark.afterLines (file : String) (m : SourceMark) (lines : List String) :
    Except AppPortConfigError SourceMark :=
  lines.foldlM (SourceMark.next file) m

/-- The line after these begins inside a multi-line value. -/
def InsideValue (file : String) (before : List String) (m : SourceMark) : Prop :=
  SourceMark.afterLines file {} before = .ok m ∧ m.mark ≠ Mark.top

/-- Every line of a multi-line value is handed on as it stands. -/
def PassesValues (file source : String) : Prop :=
  ∀ before line rest m, splitLines source = before ++ line :: rest → InsideValue file before m →
    ∃ s, readUseLines file {} before = .ok s ∧
      readUseLine file s line = .ok { s with tomlLines := s.tomlLines ++ [line] }

/-- No line of a multi-line value is in a block, or looks like a `use` line. -/
def NoUseInValues (file source : String) : Prop :=
  ∀ before line rest m, splitLines source = before ++ line :: rest → InsideValue file before m →
    m.useBlock = none ∧ useLine (jsTrim line) = none

/-- A line of a block is never handed on alone. -/
theorem useBlock_of_passed {file : String} {s : UseState} {line : String}
    (h : readUseLine file s line = .ok { s with tomlLines := s.tomlLines ++ [line] }) :
    s.useBlock = none ∧ useLine (jsTrim line) = none := by
  obtain ⟨uses, tomlLines, useBlock⟩ := s
  unfold readUseLine at h
  cases useBlock with
  | some capability =>
    simp only at h
    split at h
    · cases congrArg UseState.useBlock (Except.ok.inj h)
    · split at h
      · have hlines := congrArg UseState.tomlLines (Except.ok.inj h)
        simp at hlines
      · have hlines := congrArg UseState.tomlLines (Except.ok.inj h)
        simp at hlines
  | none =>
    refine ⟨rfl, ?_⟩
    simp only at h
    split at h
    · split at h
      · cases h
      · have hlines := congrArg UseState.tomlLines (Except.ok.inj h)
        simp at hlines
    · next hnone => exact hnone

/-- The preprocessor goes with the source, over one line that it does not misread. -/
theorem readUseLine_simulates {file : String} {m m' : SourceMark} {s : UseState} {line : String}
    (hblock : s.useBlock = m.useBlock) (hnext : m.next file line = .ok m')
    (hinside : m.mark ≠ Mark.top → m.useBlock = none ∧ useLine (jsTrim line) = none) :
    ∃ s', readUseLine file s line = .ok s' ∧ s'.useBlock = m'.useBlock := by
  obtain ⟨uses, tomlLines, useBlock⟩ := s
  obtain rfl : useBlock = m.useBlock := hblock
  unfold SourceMark.next at hnext
  unfold readUseLine
  split at hnext
  · next hvalue =>
    obtain ⟨hnone, huse⟩ := hinside hvalue
    obtain rfl := Except.ok.inj hnext
    simp only [hnone, huse]
    exact ⟨_, rfl, rfl⟩
  · cases hcase : m.useBlock with
    | some capability =>
      simp only [hcase] at hnext ⊢
      split at hnext
      · next hclose =>
        obtain rfl := Except.ok.inj hnext
        rw [if_pos hclose]
        exact ⟨_, rfl, rfl⟩
      · next hclose =>
        obtain rfl := Except.ok.inj hnext
        rw [if_neg hclose]
        split <;> exact ⟨_, rfl, rfl⟩
    | none =>
      simp only [hcase] at hnext ⊢
      cases hline : useLine (jsTrim line) with
      | some found =>
        obtain ⟨name, opens⟩ := found
        simp only [hline] at hnext ⊢
        split at hnext
        · cases hnext
        · next capability hnamed =>
          obtain rfl := Except.ok.inj hnext
          simp only [hnamed]
          exact ⟨_, rfl, rfl⟩
      | none =>
        simp only [hline] at hnext ⊢
        obtain rfl := Except.ok.inj hnext
        exact ⟨_, rfl, rfl⟩

theorem SourceMark.afterLines_snoc (file : String) (m : SourceMark) (lines : List String) (line : String) :
    m.afterLines file (lines ++ [line]) = (m.afterLines file lines).bind fun m' => m'.next file line := by
  unfold SourceMark.afterLines
  rw [List.foldlM_append]
  show (List.foldlM (SourceMark.next file) m lines).bind _ = _
  congr 1
  funext m'
  show (m'.next file line).bind (fun x => .ok x) = _
  cases m'.next file line <;> rfl

theorem readUseLines_snoc (file : String) (s : UseState) (lines : List String) (line : String) :
    readUseLines file s (lines ++ [line]) =
      (readUseLines file s lines).bind fun s' => readUseLine file s' line := by
  rw [readUseLines_append]
  congr 1
  funext s'
  rw [readUseLines_cons]
  cases readUseLine file s' line <;> rfl

/-- The preprocessor goes with the source as far as it misreads no line of a value. -/
theorem readUseLines_simulates {file : String} (lines : List String) {m : SourceMark}
    (hlines : SourceMark.afterLines file {} lines = .ok m)
    (hinside : ∀ before line rest m, lines = before ++ line :: rest → InsideValue file before m →
      m.useBlock = none ∧ useLine (jsTrim line) = none) :
    ∃ s, readUseLines file {} lines = .ok s ∧ s.useBlock = m.useBlock := by
  induction lines using List.reverseRecOn generalizing m with
  | nil =>
    obtain rfl := Except.ok.inj hlines
    exact ⟨{}, rfl, rfl⟩
  | append_singleton lines line ih =>
    rw [SourceMark.afterLines_snoc] at hlines
    cases hbefore : SourceMark.afterLines file {} lines with
    | error e =>
      rw [hbefore] at hlines
      cases hlines
    | ok before =>
      rw [hbefore] at hlines
      obtain ⟨s, hs, hblock⟩ := ih hbefore fun before' line' rest m' hsplit =>
        hinside before' line' (rest ++ [line]) m' (by rw [hsplit, List.append_assoc]; rfl)
      obtain ⟨s', hs', hblock'⟩ := readUseLine_simulates hblock hlines fun hvalue =>
        hinside lines line [] before rfl ⟨hbefore, hvalue⟩
      refine ⟨s', ?_, hblock'⟩
      rw [readUseLines_snoc, hs]
      exact hs'

/-- **When the lines of multi-line values are handed on as they stand.** -/
theorem passesValues_iff (file source : String) :
    PassesValues file source ↔ NoUseInValues file source := by
  constructor
  · intro hpasses before
    -- by the lines before it: of the first line that is misread, the preprocessor knows
    -- the block it is in
    induction hlength : before.length using Nat.strongRecOn generalizing before with
    | ind n ih =>
      intro line rest m hsource hinside
      obtain ⟨s, hs, hpassed⟩ := hpasses before line rest m hsource hinside
      obtain ⟨s', hs', hblock⟩ := readUseLines_simulates before hinside.1 fun before' line' rest' m' hsplit =>
        ih before'.length (by rw [← hlength, hsplit]; simp) before' rfl line' (rest' ++ line :: rest) m'
          (by rw [hsource, hsplit, List.append_assoc]; rfl)
      obtain rfl := Except.ok.inj (hs.symm.trans hs')
      rw [← hblock]
      exact useBlock_of_passed hpassed
  · intro hnone before line rest m hsource hinside
    obtain ⟨s, hs, hblock⟩ := readUseLines_simulates before hinside.1 fun before' line' rest' m' hsplit =>
      hnone before' line' (rest' ++ line :: rest) m' (by rw [hsource, hsplit, List.append_assoc]; rfl)
    obtain ⟨hnoblock, huse⟩ := hnone before line rest m hsource hinside
    exact ⟨s, hs, readUseLine_other (hblock.trans hnoblock) huse⟩

/-- Two lines of the `api` table. -/
def twoLines : UseBlock where
  capability := .api
  opening := "use api \x7b"
  body := ["  keys = true", "  enabled = true"]
  closing := "\x7d"
  opens := by decide +kernel
  lines := by
    intro line hline
    left
    simp only [List.mem_cons, List.not_mem_nil, or_false] at hline
    rcases hline with rfl | rfl
    · exact ⟨⟨'k', "eys = true".toList, by decide +kernel, .inl (by decide)⟩, by decide +kernel,
        by decide +kernel⟩
    · exact ⟨⟨'e', "nabled = true".toList, by decide +kernel, .inl (by decide)⟩, by decide +kernel,
        by decide +kernel⟩
  closes := by decide +kernel
  single := by
    unfold OneLine
    decide +kernel

end AppPort
