import Mathlib.Data.List.Basic

/-!
# Bounded queries

`boundedFind` reads a collection page by page, following the cursor, until it has what
was asked for or the query is exhausted. What a page holds is the store's choice: any
number of records up to the limit, matching or not.
-/

namespace AppPort

variable {α : Type}

/-- The largest page one bounded query returns. -/
def FELTDB_QUERY_PAGE_LIMIT : Nat := 1000

/-- A page of `db.query`. -/
structure QueryPage (α : Type) where
  records : List α
  exhausted : Bool
  nextCursor : Option String := none

/-- `db.query` with one `where`: a limit and a cursor. -/
abbrev BoundedQuery (α : Type) := Nat → Option String → QueryPage α

/-- `cursor ? … : …`. -/
def usable (cursor : Option String) : Option String := cursor.filter (· ≠ "")

/-- The loop of `boundedFind`; nothing when it runs out of fuel. -/
def boundedFindFrom (query : BoundedQuery α) (isMatch : α → Bool) (max : Nat) :
    Nat → List α → Option String → Option (List α)
  | 0, _, _ => none
  | fuel + 1, found, cursor =>
    if found.length < max then
      let page := query (min FELTDB_QUERY_PAGE_LIMIT (max - found.length)) cursor
      let found' := found ++ page.records.filter isMatch
      if page.exhausted ∨ usable page.nextCursor = none ∨ page.records.isEmpty then
        some (found'.take max)
      else boundedFindFrom query isMatch max fuel found' (usable page.nextCursor)
    else some (found.take max)

/-- `boundedFind`. -/
def boundedFind (fuel : Nat) (query : BoundedQuery α) (isMatch : α → Bool) (max : Nat) :
    Option (List α) :=
  boundedFindFrom query isMatch max fuel [] none

/-- The pages of a query follow each other through the rows: a page holds the first of
those that lie ahead of the cursor, and is exhausted only where it holds them all; before
that it has records, and its cursor stands after them. -/
structure Enumerates (query : BoundedQuery α) (rows : List α) where
  position : Option String → Nat
  start : position none = 0
  ahead : ∀ limit cursor, (query limit cursor).records <+: rows.drop (position cursor)
  ended : ∀ limit cursor, (query limit cursor).exhausted = true →
    (query limit cursor).records = rows.drop (position cursor)
  goesOn : ∀ limit cursor, 0 < limit → (query limit cursor).exhausted = false →
    (query limit cursor).records ≠ [] ∧ ∃ next, (query limit cursor).nextCursor = some next ∧
      next ≠ "" ∧ position (some next) = position cursor + (query limit cursor).records.length

/-- `db.query` hands out consecutive chunks of the rows: each request is answered from
where its cursor stands; a chunk is empty, or said to exhaust the query, only at the end;
before the end there is a cursor, and a cursor stands right after its chunk. -/
structure Chunks (query : BoundedQuery α) (rows : List α) (position : Option String → Nat) :
    Prop where
  start : position none = 0
  ahead : ∀ limit cursor, (query limit cursor).records <+: rows.drop (position cursor)
  exhausted : ∀ limit cursor, (query limit cursor).exhausted = true →
    rows.length ≤ position cursor + (query limit cursor).records.length
  nonempty : ∀ limit cursor, 0 < limit → position cursor < rows.length →
    (query limit cursor).records ≠ []
  more : ∀ limit cursor, 0 < limit →
    position cursor + (query limit cursor).records.length < rows.length →
    usable (query limit cursor).nextCursor ≠ none
  continues : ∀ limit cursor next, 0 < limit → (query limit cursor).exhausted = false →
    usable (query limit cursor).nextCursor = some next →
    position (some next) = position cursor + (query limit cursor).records.length

namespace Chunks

variable {query : BoundedQuery α} {rows : List α} {position : Option String → Nat}
  {isMatch : α → Bool} {max : Nat}

/-- Enough found in the first rows is enough found in all. -/
theorem take_filter_take {p : Nat} (h : max ≤ ((rows.take p).filter isMatch).length) :
    ((rows.take p).filter isMatch).take max = (rows.filter isMatch).take max := by
  have hsplit : rows.filter isMatch =
      (rows.take p).filter isMatch ++ (rows.drop p).filter isMatch := by
    rw [← List.filter_append, List.take_append_drop]
  rw [hsplit, List.take_append_of_le_length h]

/-- What was found before a page and on it is what the rows up to its end hold. -/
theorem found_page (h : Chunks query rows position) (limit : Nat) (cursor : Option String) :
    (rows.take (position cursor)).filter isMatch ++ (query limit cursor).records.filter isMatch =
      (rows.take (position cursor + (query limit cursor).records.length)).filter isMatch := by
  have hpage := List.prefix_iff_eq_take.mp (h.ahead limit cursor)
  rw [List.take_add, List.filter_append, ← hpage]

/-- A page that ends the loop lies at the end of the rows. -/
theorem stop_at_end (h : Chunks query rows position) {limit : Nat} {cursor : Option String}
    (hpositive : 0 < limit)
    (hstop : (query limit cursor).exhausted ∨ usable (query limit cursor).nextCursor = none ∨
      (query limit cursor).records.isEmpty) :
    rows.length ≤ position cursor + (query limit cursor).records.length := by
  by_contra hbefore
  rcases hstop with hexhausted | hcursor | hempty
  · exact hbefore (h.exhausted limit cursor hexhausted)
  · exact h.more limit cursor hpositive (by omega) hcursor
  · have hnil := List.isEmpty_iff.mp hempty
    have hposition : position cursor < rows.length := by omega
    exact h.nonempty limit cursor hpositive hposition hnil

/-- The loop, by induction on the fuel: the cursor's position and what has been found move
together, and every page that does not end the loop moves them on. -/
theorem boundedFindFrom_eq (h : Chunks query rows position) {fuel : Nat} {cursor : Option String}
    (hbefore : position cursor ≤ rows.length) (hfuel : rows.length < fuel + position cursor) :
    boundedFindFrom query isMatch max fuel ((rows.take (position cursor)).filter isMatch) cursor =
      some ((rows.filter isMatch).take max) := by
  induction fuel generalizing cursor with
  | zero => omega
  | succ fuel ih =>
    unfold boundedFindFrom
    split
    · next hmissing =>
      generalize hlimit : min FELTDB_QUERY_PAGE_LIMIT
        (max - ((rows.take (position cursor)).filter isMatch).length) = limit
      have hpositive : 0 < limit := by
        unfold FELTDB_QUERY_PAGE_LIMIT at hlimit
        omega
      have hlength := (h.ahead limit cursor).length_le
      rw [List.length_drop] at hlength
      simp only [h.found_page limit cursor]
      by_cases hstop : (query limit cursor).exhausted ∨
          usable (query limit cursor).nextCursor = none ∨ (query limit cursor).records.isEmpty
      · rw [if_pos hstop, List.take_of_length_le (h.stop_at_end hpositive hstop)]
      · rw [if_neg hstop]
        push Not at hstop
        obtain ⟨hexhausted, hcursor, hsome⟩ := hstop
        obtain ⟨next, hnext⟩ := Option.ne_none_iff_exists'.mp hcursor
        have hposition := h.continues limit cursor next hpositive (by simpa using hexhausted) hnext
        have hpos : 0 < (query limit cursor).records.length := by
          apply List.length_pos_iff.mpr
          simpa using hsome
        rw [hnext, ← hposition]
        exact ih (by omega) (by omega)
    · next hfound => rw [take_filter_take (by omega)]

/-- Whatever the chunks are, a bounded query finds the first matching rows. -/
theorem boundedFind_eq (h : Chunks query rows position) {fuel : Nat} (hfuel : rows.length < fuel) :
    boundedFind fuel query isMatch max = some ((rows.filter isMatch).take max) := by
  have hrun := @boundedFindFrom_eq _ query rows position isMatch max h fuel none
    (by rw [h.start]; omega) (by rw [h.start]; omega)
  rw [h.start] at hrun
  exact hrun

end Chunks

namespace Enumerates

variable {query : BoundedQuery α} {rows : List α} {isMatch : α → Bool} {max : Nat}

/-- Pages that follow each other are chunks that never end early. -/
theorem chunks (h : Enumerates query rows) : Chunks query rows h.position := by
  have hend : ∀ limit cursor, (query limit cursor).exhausted = true →
      rows.length ≤ h.position cursor + (query limit cursor).records.length := by
    intro limit cursor hexhausted
    rw [h.ended limit cursor hexhausted, List.length_drop]
    omega
  constructor
  · exact h.start
  · exact h.ahead
  · exact hend
  · intro limit cursor hlimit hposition
    cases hexhausted : (query limit cursor).exhausted with
    | true =>
      rw [h.ended limit cursor hexhausted]
      simpa using hposition
    | false => exact (h.goesOn limit cursor hlimit hexhausted).1
  · intro limit cursor hlimit hbefore
    cases hexhausted : (query limit cursor).exhausted with
    | true => exact absurd (hend limit cursor hexhausted) (by omega)
    | false =>
      obtain ⟨-, next, hnext, hne, -⟩ := h.goesOn limit cursor hlimit hexhausted
      simp [usable, hnext, hne]
  · intro limit cursor next hlimit hexhausted husable
    obtain ⟨-, next', hnext, hne, hposition⟩ := h.goesOn limit cursor hlimit hexhausted
    rw [hnext] at husable
    simp only [usable, Option.filter_eq_some_iff, Option.some.injEq] at husable
    rw [← husable.1]
    exact hposition

/-- Whatever its pages are, a bounded query finds the first matching rows. -/
theorem boundedFind_eq (h : Enumerates query rows) {fuel : Nat} (hfuel : rows.length < fuel) :
    boundedFind fuel query isMatch max = some ((rows.filter isMatch).take max) :=
  h.chunks.boundedFind_eq hfuel

end Enumerates

/-! ## Equality filters -/

section filters

variable {ν : Type}

/-- `matches`: every field of `where` holds, by strict equality. -/
def matchesWhere (strictEquals : ν → ν → Bool) (field : α → String → ν)
    (conditions : List (String × ν)) (record : α) : Bool :=
  conditions.all fun condition => strictEquals (field record condition.1) condition.2

/-- `boundedFind(db, collection, where, max)`: the database is asked with the conditions, and
what it answers is checked against them again. -/
def boundedFindWhere (fuel : Nat) (query : String → List (String × ν) → BoundedQuery α)
    (strictEquals : ν → ν → Bool) (field : α → String → ν) (collection : String)
    (conditions : List (String × ν)) (max : Nat) : Option (List α) :=
  boundedFind fuel (query collection conditions) (matchesWhere strictEquals field conditions) max

/-- **A bounded query finds the first matching records.** Whatever chunks the database hands
out, matching or not, `boundedFind` ends and returns the first `max` of the records that
match, in the order of the collection, each once. -/
theorem boundedFindWhere_first (query : String → List (String × ν) → BoundedQuery α)
    (strictEquals : ν → ν → Bool) (field : α → String → ν) (collection : String)
    (conditions : List (String × ν)) (max : Nat) (rows : List α) (position : Option String → Nat)
    (h : Chunks (query collection conditions) rows position) :
    ∃ found, (∀ fuel, rows.length < fuel →
        boundedFindWhere fuel query strictEquals field collection conditions max = some found) ∧
      found = (rows.filter (matchesWhere strictEquals field conditions)).take max ∧
      found.length = min max (rows.countP (matchesWhere strictEquals field conditions)) := by
  constructor
  constructor
  · intro fuel hfuel
    exact h.boundedFind_eq hfuel
  · constructor
    · rfl
    · rw [List.length_take, List.countP_eq_length_filter]

end filters

/-- A store that reads two records at a time, counts its cursor in strokes, and learns that
it is at the end only from an empty page. -/
def strokesQuery (rows : List α) : BoundedQuery α := fun limit cursor =>
  let position := cursor.elim 0 String.length
  let records := (rows.drop position).take (min limit 2)
  { records, exhausted := false,
    nextCursor := some (String.ofList (List.replicate (position + records.length) 'x')) }

theorem strokesQuery_chunks (rows : List α) :
    Chunks (strokesQuery rows) rows (fun cursor => cursor.elim 0 String.length) := by
  constructor
  · rfl
  · intro limit cursor
    exact List.take_prefix _ _
  · intro _ _ hexhausted
    cases hexhausted
  · intro limit cursor hlimit hposition hnil
    simp only [strokesQuery, List.take_eq_nil_iff, List.drop_eq_nil_iff] at hnil
    omega
  · intro limit cursor hlimit hbefore hnone
    simp only [strokesQuery, List.length_take, List.length_drop] at hbefore hnone
    simp only [usable, Option.filter_eq_none_iff, Option.some.injEq] at hnone
    have hempty := hnone _ rfl
    simp at hempty
    omega
  · intro limit cursor next _ _ hnext
    simp only [usable, Option.filter_eq_some_iff] at hnext
    have hlength := congrArg (fun s => s.elim 0 String.length) hnext.1
    simpa [strokesQuery] using hlength.symm

/-- Five records, two of them asked for: `boundedFind` reads past the ones that do not match. -/
theorem boundedFindWhere_strokes :
    ∃ found, (∀ fuel, 5 < fuel →
        boundedFindWhere fuel (fun _ _ => strokesQuery [1, 2, 1, 3, 1]) (· == ·) (fun r _ => r) "c"
          [("kind", 1)] 2 = some found) ∧
      found = ([1, 2, 1, 3, 1].filter (matchesWhere (· == ·) (fun r _ => r) [("kind", 1)])).take 2 ∧
      found.length = min 2
        ([1, 2, 1, 3, 1].countP (matchesWhere (· == ·) (fun (r : Nat) _ => r) [("kind", 1)])) :=
  boundedFindWhere_first (fun _ _ => strokesQuery [1, 2, 1, 3, 1]) (· == ·) (fun r _ => r) "c"
    [("kind", 1)] 2 [1, 2, 1, 3, 1] _ (strokesQuery_chunks [1, 2, 1, 3, 1])

end AppPort
