import Mathlib.Data.List.Basic

/-!
# Patterns — searching a text of code units

A small language of patterns over texts of numbers: classes, sequences, choices,
repetitions of a class, boundaries between word and other units, and a negative look
ahead. `residuals` lists every way a pattern can match at one place, so a search
succeeds exactly when some match exists, whatever order an engine tries them in.
-/

namespace Effects

/-- A pattern over code units. -/
inductive Pattern where
  /-- One unit of a class. -/
  | unit (p : Nat → Bool)
  | seq (a b : Pattern)
  | alt (a b : Pattern)
  /-- At least `min` units of a class. -/
  | many (min : Nat) (p : Nat → Bool)
  /-- The empty match. -/
  | empty
  /-- A word unit on one side only. -/
  | boundary (word : Nat → Bool)
  /-- The next unit, if any, is not in the class. -/
  | notAhead (p : Nat → Bool)

namespace Pattern

/-- A place in a text: the unit before it, and what follows. -/
abbrev Place := Option Nat × List Nat

/-- The places at least `min` units of a class lead to. -/
def manyFrom (p : Nat → Bool) : Nat → Option Nat → List Nat → List Place
  | 0, before, [] => [(before, [])]
  | _ + 1, _, [] => []
  | 0, before, c :: rest =>
    (before, c :: rest) :: if p c then manyFrom p 0 (some c) rest else []
  | min + 1, _, c :: rest => if p c then manyFrom p min (some c) rest else []

/-- The places a pattern leads to. -/
def residuals : Pattern → Place → List Place
  | unit p, (_, c :: rest) => if p c then [(some c, rest)] else []
  | unit _, (_, []) => []
  | seq a b, place => (residuals a place).flatMap (residuals b)
  | alt a b, place => residuals a place ++ residuals b place
  | many min p, (before, rest) => manyFrom p min before rest
  | empty, place => [place]
  | boundary word, (before, rest) =>
    if before.any word != rest.head?.any word then [(before, rest)] else []
  | notAhead p, (before, rest) => if rest.head?.any p then [] else [(before, rest)]

/-- The pattern matches somewhere from this place on. -/
def searchFrom (r : Pattern) (before : Option Nat) : List Nat → Bool
  | [] => !(residuals r (before, [])).isEmpty
  | c :: rest => !(residuals r (before, c :: rest)).isEmpty || searchFrom r (some c) rest

/-- `pattern.test(text)`. -/
def test (r : Pattern) (text : List Nat) : Bool := searchFrom r none text

/-! ## Building patterns -/

/-- One after the other. -/
def all : List Pattern → Pattern
  | [] => empty
  | [r] => r
  | r :: rest => seq r (all rest)

/-- One of them. -/
def oneOf : List Pattern → Pattern
  | [] => unit fun _ => false
  | [r] => r
  | r :: rest => alt r (oneOf rest)

/-- Exactly `n` units of a class. -/
def times : Nat → (Nat → Bool) → Pattern
  | 0, _ => empty
  | n + 1, p => seq (unit p) (times n p)

/-- A pattern or nothing. -/
def opt (r : Pattern) : Pattern := alt r empty

/-- A literal text. -/
def literal (text : List Nat) : Pattern := all (text.map fun n => unit fun c => c == n)

end Pattern

end Effects
