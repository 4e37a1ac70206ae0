import Mathlib.Data.List.Basic

/-!
# TOML texts

What a program can rely on of a TOML parser without a grammar of the language: which
values there are, how the lines of a text are read one after the other (what a line leaves
open, and what a blank line is), and that a table is opened once. `Lawful` states it of a
parser.
-/

namespace Toml

/-! ## Values and lines -/

inductive Value where
  | str (s : String)
  /-- A number that is an integer. -/
  | num (n : Int)
  /-- Any other number. -/
  | real (text : String)
  | bool (b : Bool)
  | date (text : String)
  | arr (xs : List Value)
  | table (fields : List (String × Value))
  deriving Repr, Inhabited

/-- A table: keys in the order they were written. -/
abbrev Table := List (String × Value)

/-- `text.split('\n')`. -/
def splitLines (text : String) : List String := (text.toList.splitOn '\n').map String.ofList

/-- `lines.join('\n')`. -/
def joinLines (lines : List String) : String :=
  String.ofList (['\n'].intercalate (lines.map String.toList))

/-- A text that is one line. -/
def OneLine (line : String) : Prop := '\n' ∉ line.toList

instance (line : String) : Decidable (OneLine line) := inferInstanceAs (Decidable ('\n' ∉ line.toList))

/-- What a list is split at is in none of its parts. -/
theorem not_mem_of_mem_splitOn {α : Type} [BEq α] [LawfulBEq α] {a : α} :
    (xs : List α) → {part : List α} → part ∈ xs.splitOn a → a ∉ part
  | [], part, h => by
    obtain rfl : part = [] := by simpa [List.splitOn_eq_singleton] using h
    simp
  | x :: xs, part, h => by
    have ih := fun part hpart => not_mem_of_mem_splitOn (a := a) xs (hpart : part ∈ xs.splitOn a)
    rw [List.splitOn_cons_eq_if_modifyHead] at h
    split at h
    · rcases List.mem_cons.mp h with rfl | h
      · simp
      · exact ih part h
    · next hne =>
      cases hsplit : xs.splitOn a with
      | nil => exact absurd hsplit (List.splitOn_ne_nil a xs)
      | cons first rest =>
        rw [hsplit, List.modifyHead_cons] at h
        rcases List.mem_cons.mp h with rfl | h
        · have hfirst := ih first (by rw [hsplit]; exact List.mem_cons_self)
          rw [List.mem_cons, not_or]
          exact ⟨fun heq => hne (by rw [heq]; exact beq_self_eq_true _), hfirst⟩
        · exact ih part (by rw [hsplit]; exact List.mem_cons_of_mem _ h)

theorem oneLine_of_mem_splitLines {text line : String} (h : line ∈ splitLines text) : OneLine line := by
  obtain ⟨chars, hchars, rfl⟩ := List.mem_map.mp h
  unfold OneLine
  rw [String.toList_ofList]
  exact not_mem_of_mem_splitOn _ hchars

theorem splitLines_ne_nil (text : String) : splitLines text ≠ [] := by
  unfold splitLines
  simp

theorem splitOn_intercalate {α : Type} [BEq α] [LawfulBEq α] (a : α) : (parts : List (List α)) →
    parts ≠ [] → ([a].intercalate parts).splitOn a = parts.flatMap fun part => part.splitOn a
  | [], h => absurd rfl h
  | [part], _ => by simp
  | part :: next :: rest, _ => by
    rw [List.intercalate_cons_cons, List.append_assoc, List.singleton_append,
      List.splitOn_append_cons_self, splitOn_intercalate a (next :: rest) (by simp)]
    rfl

/-- Joined lines are split where they were joined, and where one of them has a break. -/
theorem splitLines_joinLines_flatMap {lines : List String} (hne : lines ≠ []) :
    splitLines (joinLines lines) = lines.flatMap splitLines := by
  unfold splitLines joinLines
  rw [String.toList_ofList, splitOn_intercalate _ _ (by simpa using hne), List.flatMap_map,
    List.map_flatMap]

/-- A line is its own only line. -/
theorem splitLines_of_oneLine {line : String} (h : OneLine line) : splitLines line = [line] := by
  unfold splitLines
  rw [List.splitOn_eq_singleton h]
  simp

/-- **Joining lines is undone by splitting.** -/
theorem splitLines_joinLines {lines : List String} (hne : lines ≠ [])
    (h : ∀ line ∈ lines, OneLine line) : splitLines (joinLines lines) = lines := by
  rw [splitLines_joinLines_flatMap hne]
  induction lines with
  | nil => rfl
  | cons line rest ih =>
    rw [List.flatMap_cons, splitLines_of_oneLine (h line List.mem_cons_self)]
    cases rest with
    | nil => rfl
    | cons next rest =>
      rw [ih (by simp) fun l hl => h l (List.mem_cons_of_mem _ hl)]
      rfl

/-! ## What a line leaves open -/

/-- Where a reader is: between tokens inside so many array brackets, or in a string or a
comment there. -/
inductive Mark where
  | plain (depth : Nat)
  | basic (depth : Nat)
  | literal (depth : Nat)
  | multiBasic (depth : Nat)
  | multiLiteral (depth : Nat)
  | comment (depth : Nat)
  deriving DecidableEq, Repr

namespace Mark

/-- Nothing is open. -/
def top : Mark := plain 0

/-- One character, and how many after it are read with it. -/
def read (mark : Mark) (c : Char) (rest : List Char) : Nat × Mark :=
  match mark with
  | plain d =>
    if c = '"' then if rest.take 2 = ['"', '"'] then (2, multiBasic d) else (0, basic d)
    else if c = '\'' then if rest.take 2 = ['\'', '\''] then (2, multiLiteral d) else (0, literal d)
    else if c = '#' then (0, comment d)
    else if c = '[' then (0, plain (d + 1))
    else if c = ']' then (0, plain (d - 1))
    else (0, plain d)
  | basic d => if c = '\\' then (1, basic d) else if c = '"' then (0, plain d) else (0, basic d)
  | literal d => if c = '\'' then (0, plain d) else (0, literal d)
  | multiBasic d =>
    if c = '\\' then (1, multiBasic d)
    else if c = '"' ∧ rest.take 2 = ['"', '"'] then (2, plain d) else (0, multiBasic d)
  | multiLiteral d =>
    if c = '\'' ∧ rest.take 2 = ['\'', '\''] then (2, plain d) else (0, multiLiteral d)
  | comment d => (0, comment d)

/-- The characters of a line, the first few of them read already. -/
def scan : Nat → Mark → List Char → Mark
  | _, mark, [] => mark
  | skip + 1, mark, _ :: rest => scan skip mark rest
  | 0, mark, c :: rest => scan (mark.read c rest).1 (mark.read c rest).2 rest

/-- At the end of a line a comment ends, and so does a string that may not be continued. -/
def endLine : Mark → Mark
  | basic d | literal d | comment d => plain d
  | mark => mark

/-- After a line. -/
def after (mark : Mark) (line : String) : Mark := (scan 0 mark line.toList).endLine

/-- After some lines. -/
def afterLines (mark : Mark) (lines : List String) : Mark := lines.foldl after mark

@[simp] theorem afterLines_nil (mark : Mark) : mark.afterLines [] = mark := rfl

@[simp] theorem afterLines_cons (mark : Mark) (line : String) (lines : List String) :
    mark.afterLines (line :: lines) = (mark.after line).afterLines lines := rfl

theorem afterLines_append (mark : Mark) (lines lines' : List String) :
    mark.afterLines (lines ++ lines') = (mark.afterLines lines).afterLines lines' := by
  unfold afterLines
  exact List.foldl_append

end Mark

/-! ## Lines that say nothing, and lines that say one thing -/

/-- White space of TOML; a carriage return is part of a line's end. -/
def isBlankChar (c : Char) : Bool := c == ' ' || c == '\t' || c == '\r'

/-- An empty line, or a comment. -/
def isBlankLine (line : String) : Bool :=
  match line.toList.dropWhile isBlankChar with
  | [] => true
  | c :: _ => c == '#'

/-- A character a bare key is made of. -/
def isKeyChar (c : Char) : Bool := c.isAlphanum || c == '_' || c == '-'

/-- A key that needs no quotes. -/
def isBareKey (key : String) : Bool := !key.toList.isEmpty && key.toList.all isKeyChar

/-- The line that opens a table. -/
def header (key : String) : String := "[" ++ key ++ "]"

/-- A line that is a whole key/value pair: it begins with a key, and leaves nothing open. -/
structure IsEntryLine (line : String) : Prop where
  key : ∃ c rest, line.toList.dropWhile isBlankChar = c :: rest ∧ (isKeyChar c ∨ c = '"' ∨ c = '\'')
  equals : '=' ∈ line.toList
  whole : Mark.top.after line = Mark.top

theorem scan_comment (d : Nat) (chars : List Char) : Mark.scan 0 (.comment d) chars = .comment d := by
  induction chars with
  | nil => rfl
  | cons c rest ih => exact ih

/-- A blank line leaves what is open as it is. -/
theorem after_blank {line : String} (h : isBlankLine line = true) : Mark.top.after line = Mark.top := by
  unfold isBlankLine at h
  unfold Mark.after
  have hscan : ∀ chars : List Char,
      (match chars.dropWhile isBlankChar with | [] => true | c :: _ => c == '#') = true →
      (Mark.scan 0 Mark.top chars).endLine = Mark.top := by
    intro chars
    induction chars with
    | nil => exact fun _ => rfl
    | cons c rest ih =>
      intro hchars
      cases hblank : isBlankChar c with
      | true =>
        rw [List.dropWhile_cons_of_pos hblank] at hchars
        have hread : Mark.top.read c rest = (0, Mark.top) := by
          unfold isBlankChar at hblank
          simp only [Bool.or_eq_true, beq_iff_eq] at hblank
          rcases hblank with (rfl | rfl) | rfl <;> rfl
        show (Mark.scan (Mark.top.read c rest).1 (Mark.top.read c rest).2 rest).endLine = Mark.top
        rw [hread]
        exact ih hchars
      | false =>
        rw [List.dropWhile_cons_of_neg (by simp [hblank])] at hchars
        obtain rfl : c = '#' := by simpa using hchars
        show (Mark.scan 0 (.comment 0) rest).endLine = Mark.top
        rw [scan_comment]
        rfl
  exact hscan _ h

/-! ## What is relied on of a parser -/

/-- A parser: the table of a text, or why it is none. -/
abbrev Parser := String → Except String Table

/-- Two readings agree: they are the same, or both fail. -/
def Agrees {ε ε' α : Type} : Except ε α → Except ε' α → Prop
  | .ok a, .ok b => a = b
  | .error _, .error _ => True
  | _, _ => False

theorem Agrees.refl {ε α : Type} (r : Except ε α) : Agrees r r := by
  cases r with
  | ok a => exact rfl
  | error e => trivial

theorem Agrees.symm {ε ε' α : Type} {r : Except ε α} {r' : Except ε' α} (h : Agrees r r') :
    Agrees r' r := by
  cases r <;> cases r'
  · trivial
  · exact h
  · exact h
  · exact Eq.symm h

theorem Agrees.trans {ε ε' ε'' α : Type} {r : Except ε α} {r' : Except ε' α} {r'' : Except ε'' α}
    (h : Agrees r r') (h' : Agrees r' r'') : Agrees r r'' := by
  cases r <;> cases r' <;> cases r'' <;>
    first | trivial | exact absurd h id | exact absurd h' id | exact Eq.trans h h'

/-- What fails agrees only with what fails. -/
theorem Agrees.error {ε ε' α : Type} {e : ε} {r : Except ε' α}
    (h : Agrees (Except.error e : Except ε α) r) : ∃ e', r = .error e' := by
  cases r with
  | ok a => exact absurd h id
  | error e' => exact ⟨e', rfl⟩

/-- The parser reads TOML, as far as lines and tables go. -/
structure Lawful (parse : Parser) : Prop where
  /-- A table that is opened is there. -/
  header : ∀ text key, isBareKey key = true → splitLines text = [header key] →
    parse text = .ok [(key, .table [])]
  /-- **A table is opened once.** -/
  twice : ∀ text key before between rest, isBareKey key = true →
    splitLines text = before ++ Toml.header key :: (between ++ Toml.header key :: rest) →
    Mark.top.afterLines before = Mark.top →
    Mark.top.afterLines (before ++ Toml.header key :: between) = Mark.top → ∃ e, parse text = .error e
  /-- A blank line between two others says nothing. -/
  blank : ∀ text text' line before rest, isBlankLine line = true →
    splitLines text = before ++ line :: rest → splitLines text' = before ++ rest →
    Mark.top.afterLines before = Mark.top → Agrees (parse text) (parse text')

namespace Lawful

variable {parse : Parser}

/-- **Blank lines say nothing.** -/
theorem blanks (h : Lawful parse) : (blanks : List String) → (before rest : List String) →
    (∀ line ∈ blanks, isBlankLine line = true) → (∀ line ∈ blanks, OneLine line) →
    (∀ line ∈ before, OneLine line) → (∀ line ∈ rest, OneLine line) → before ≠ [] →
    Mark.top.afterLines before = Mark.top →
    Agrees (parse (joinLines (before ++ (blanks ++ rest)))) (parse (joinLines (before ++ rest)))
  | [], before, rest, _, _, _, _, _, _ => Agrees.refl _
  | line :: lines, before, rest, hblank, hone, hbefore, hrest, hne, hmark => by
    have hlines := h.blanks lines before rest (fun l hl => hblank l (List.mem_cons_of_mem _ hl))
      (fun l hl => hone l (List.mem_cons_of_mem _ hl)) hbefore hrest hne hmark
    refine (h.blank _ _ line before (lines ++ rest) (hblank line List.mem_cons_self) ?_ ?_ hmark).trans
      hlines
    · refine splitLines_joinLines (by simp [hne]) fun l hl => ?_
      rcases List.mem_append.mp hl with hl | hl
      · exact hbefore l hl
      · rcases List.mem_append.mp hl with hl | hl
        · exact hone l hl
        · exact hrest l hl
    · refine splitLines_joinLines (by simp [hne]) fun l hl => ?_
      rcases List.mem_append.mp hl with hl | hl
      · exact hbefore l hl
      · rcases List.mem_append.mp hl with hl | hl
        · exact hone l (List.mem_cons_of_mem _ hl)
        · exact hrest l hl

end Lawful

end Toml
