import Mathlib.Data.List.Sort
import Mathlib.Data.List.Perm.Basic

/-!
# The order of an object's own properties

An object lists the properties named by array indices first, in numeric order, and the
others in the order they were created. `fromEntries` creates properties one after the
other. Entries that are already in this order, `OwnOrder`, are the objects themselves:
creating them again gives the same entries.
-/

namespace Effects

/-- A text, as its UTF-16 code units. -/
abbrev Units := List Nat

/-- `/[0-9]/`. -/
def isDigitUnit (c : Nat) : Bool := 48 ≤ c && c ≤ 57

/-- The array index a key is the canonical text of, if it is one. -/
def arrayIndex (key : Units) : Option Nat :=
  if key ≠ [] ∧ key.all isDigitUnit ∧ (key.head? ≠ some 48 ∨ key = [48]) then
    let index := key.foldl (fun n c => 10 * n + (c - 48)) 0
    if index < 4294967295 then some index else none
  else none

/-- A property named `key` goes before one named `key'`, whenever it is created. -/
def goesBefore (key key' : Units) : Bool :=
  match arrayIndex key, arrayIndex key' with
  | some i, some j => decide (i < j)
  | some _, none => true
  | none, _ => false

theorem goesBefore_irrefl (key : Units) : goesBefore key key = false := by
  unfold goesBefore
  cases arrayIndex key with
  | none => rfl
  | some i => simp

theorem goesBefore_trans {a b c : Units} (hab : goesBefore a b = true)
    (hbc : goesBefore b c = true) : goesBefore a c = true := by
  unfold goesBefore at *
  cases ha : arrayIndex a <;> cases hb : arrayIndex b <;> cases hc : arrayIndex c <;>
    simp_all
  omega

variable {β : Type}

/-- Create or overwrite one property. -/
def setProperty (entries : List (Units × β)) (entry : Units × β) : List (Units × β) :=
  if entry.1 ∈ entries.map Prod.fst then
    entries.map fun e => if e.1 = entry.1 then entry else e
  else entries.orderedInsert (fun e e' => goesBefore e.1 e'.1 = true) entry

/-- `Object.fromEntries`: the properties of an object created from entries. -/
def fromEntries (entries : List (Units × β)) : List (Units × β) :=
  entries.foldl setProperty []

/-- **The entries of an object**: distinct keys, in the order of own properties. -/
structure OwnOrder (entries : List (Units × β)) : Prop where
  nodup : (entries.map Prod.fst).Nodup
  ordered : entries.Pairwise fun e e' => goesBefore e'.1 e.1 = false

theorem OwnOrder.nil : OwnOrder ([] : List (Units × β)) := ⟨List.nodup_nil, .nil⟩

/-- A property that belongs behind all others is created at the end. -/
theorem orderedInsert_last {entries : List (Units × β)} {entry : Units × β}
    (h : ∀ e ∈ entries, goesBefore entry.1 e.1 = false) :
    entries.orderedInsert (fun e e' => goesBefore e.1 e'.1 = true) entry = entries ++ [entry] := by
  induction entries with
  | nil => rfl
  | cons e rest ih =>
    have hfirst := h e List.mem_cons_self
    rw [List.orderedInsert, if_neg (by simp [hfirst]),
      ih (fun e' he' => h e' (List.mem_cons_of_mem _ he'))]
    rfl

theorem foldl_setProperty {before rest : List (Units × β)} (h : OwnOrder (before ++ rest)) :
    rest.foldl setProperty before = before ++ rest := by
  induction rest generalizing before with
  | nil => simp
  | cons entry rest ih =>
    have hnew : entry.1 ∉ before.map Prod.fst := by
      have hnodup := h.nodup
      rw [List.map_append, List.nodup_append] at hnodup
      intro hmem
      exact hnodup.2.2 _ hmem _ List.mem_cons_self rfl
    have hlast : ∀ e ∈ before, goesBefore entry.1 e.1 = false := by
      intro e he
      exact (List.pairwise_append.mp h.ordered).2.2 e he entry List.mem_cons_self
    have hset : setProperty before entry = before ++ [entry] := by
      rw [setProperty, if_neg hnew, orderedInsert_last hlast]
    rw [List.foldl_cons, hset, ih (by simpa using h)]
    simp

/-- **Objects are created as they are listed.** -/
theorem fromEntries_of_ownOrder {entries : List (Units × β)} (h : OwnOrder entries) :
    fromEntries entries = entries := by
  have hfold := @foldl_setProperty β [] entries h
  exact hfold

/-! ## What creating an object keeps -/

theorem map_fst_setProperty_present (entries : List (Units × β)) (entry : Units × β) :
    (entries.map fun e => if e.1 = entry.1 then entry else e).map Prod.fst =
      entries.map Prod.fst := by
  rw [List.map_map]
  apply List.map_congr_left
  intro e _
  simp only [Function.comp]
  split
  · next heq => exact heq.symm
  · rfl

/-- Where a new property goes keeps the order: what is before it does not go after it, and
what is behind it is behind the first it goes before. -/
theorem ordered_orderedInsert {entries : List (Units × β)} {entry : Units × β}
    (h : entries.Pairwise fun e e' => goesBefore e'.1 e.1 = false) :
    (entries.orderedInsert (fun e e' => goesBefore e.1 e'.1 = true) entry).Pairwise
      fun e e' => goesBefore e'.1 e.1 = false := by
  induction entries with
  | nil => simp
  | cons e rest ih =>
    obtain ⟨hfirst, hrest⟩ := List.pairwise_cons.mp h
    rw [List.orderedInsert]
    split
    · next hbefore =>
      apply List.pairwise_cons.mpr
      constructor
      · intro e' he'
        rcases List.mem_cons.mp he' with heq | hlater
        · rw [heq]
          by_contra hback
          have hloop := goesBefore_trans hbefore (by simpa using hback)
          rw [goesBefore_irrefl] at hloop
          cases hloop
        · by_contra hback
          have hloop := goesBefore_trans (by simpa using hback) hbefore
          rw [hfirst e' hlater] at hloop
          cases hloop
      · exact h
    · next hnot =>
      apply List.pairwise_cons.mpr
      constructor
      · intro e' he'
        rcases (List.mem_orderedInsert _).mp he' with heq | hlater
        · rw [heq]
          simpa using hnot
        · exact hfirst e' hlater
      · exact ih hrest

theorem OwnOrder.setProperty {entries : List (Units × β)} (h : OwnOrder entries)
    (entry : Units × β) : OwnOrder (setProperty entries entry) := by
  unfold Effects.setProperty
  split
  · constructor
    · rw [map_fst_setProperty_present]
      exact h.nodup
    · have hkeys : (entries.map Prod.fst).Pairwise fun k k' => goesBefore k' k = false :=
        List.pairwise_map.mpr h.ordered
      rw [← map_fst_setProperty_present entries entry] at hkeys
      exact List.pairwise_map.mp hkeys
  · next hnew =>
    constructor
    · have hperm := (List.perm_orderedInsert
        (fun e e' : Units × β => goesBefore e.1 e'.1 = true) entry entries).map Prod.fst
      rw [hperm.nodup_iff, List.map_cons, List.nodup_cons]
      exact ⟨hnew, h.nodup⟩
    · exact ordered_orderedInsert h.ordered

/-- Whatever it is created from, an object lists its properties in their order. -/
theorem ownOrder_fromEntries (entries : List (Units × β)) : OwnOrder (fromEntries entries) := by
  have hfold : ∀ (rest before : List (Units × β)), OwnOrder before →
      OwnOrder (rest.foldl Effects.setProperty before) := by
    intro rest
    induction rest with
    | nil => exact fun _ h => h
    | cons entry rest ih => exact fun before h => ih _ (h.setProperty entry)
  exact hfold entries [] .nil

/-- A property comes from an entry. -/
theorem mem_fromEntries {entries : List (Units × β)} {e : Units × β}
    (h : e ∈ fromEntries entries) : e ∈ entries := by
  have hset : ∀ (before : List (Units × β)) (entry : Units × β),
      e ∈ setProperty before entry → e ∈ before ∨ e = entry := by
    intro before entry he
    unfold Effects.setProperty at he
    split at he
    · obtain ⟨e', he', heq⟩ := List.mem_map.mp he
      split at heq
      · exact .inr heq.symm
      · exact .inl (heq ▸ he')
    · rcases (List.mem_orderedInsert _).mp he with heq | hbefore
      · exact .inr heq
      · exact .inl hbefore
  have hfold : ∀ (rest before : List (Units × β)), e ∈ rest.foldl Effects.setProperty before →
      e ∈ before ++ rest := by
    intro rest
    induction rest with
    | nil =>
      intro before he
      rwa [List.append_nil]
    | cons entry rest ih =>
      intro before he
      rcases List.mem_append.mp (ih _ he) with hbefore | hrest
      · rcases hset before entry hbefore with hold | heq
        · exact List.mem_append_left _ hold
        · rw [heq]
          simp
      · simp [hrest]
  exact hfold entries [] h

/-- Distinct entries all become properties. -/
theorem fromEntries_perm {entries : List (Units × β)} (h : (entries.map Prod.fst).Nodup) :
    (fromEntries entries).Perm entries := by
  have hfold : ∀ (rest before : List (Units × β)), ((before ++ rest).map Prod.fst).Nodup →
      (rest.foldl setProperty before).Perm (before ++ rest) := by
    intro rest
    induction rest with
    | nil =>
      intro before _
      rw [List.foldl_nil, List.append_nil]
    | cons entry rest ih =>
      intro before hnodup
      have hperm : (before ++ entry :: rest).Perm ((entry :: before) ++ rest) :=
        List.perm_middle
      have hnew : entry.1 ∉ before.map Prod.fst := by
        rw [List.map_append, List.nodup_append] at hnodup
        intro hmem
        exact hnodup.2.2 _ hmem _ List.mem_cons_self rfl
      have hset : (setProperty before entry).Perm (entry :: before) := by
        rw [setProperty, if_neg hnew]
        exact List.perm_orderedInsert _ entry before
      have hall := (hset.append_right rest).trans hperm.symm
      have hdistinct : ((setProperty before entry ++ rest).map Prod.fst).Nodup :=
        (hall.map Prod.fst).nodup_iff.mpr hnodup
      exact (ih _ hdistinct).trans hall
  exact hfold entries [] h

end Effects
