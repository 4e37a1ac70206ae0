import Mathlib.Data.List.Basic

/-!
# Machines

A state that takes events one at a time, refuses those that cannot occur in it, and puts
something out on each. The rules say what holds of every run: an invariant that may count
the steps of a kind, and a relation between a state and a later one that takes what was put
out in between into account.
-/

namespace Effects

/-- What an event does in a state; `none` where it cannot occur. -/
structure Machine (S E O : Type) where
  step : S → E → Option (S × List O)

namespace Machine

variable {S E O : Type} (m : Machine S E O)

/-- The events, one after the other, and all that is put out. -/
def run : S → List E → Option (S × List O)
  | s, [] => some (s, [])
  | s, e :: es =>
    match m.step s e with
    | none => none
    | some (s', out) => (run s' es).map fun r => (r.1, out ++ r.2)

/-- The steps of a run that count. -/
def count (counts : S → E → Bool) : S → List E → Nat
  | _, [] => 0
  | s, e :: es => (if counts s e then 1 else 0) +
    match m.step s e with
    | none => 0
    | some (s', _) => count counts s' es

variable {m} {s s' : S} {e : E} {es : List E} {out : List O}

@[simp] theorem run_nil : m.run s [] = some (s, []) := rfl

/-- A run takes its first event, and goes on from there. -/
theorem run_cons : m.run s (e :: es) = some (s', out) ↔
    ∃ s₁ first rest, m.step s e = some (s₁, first) ∧ m.run s₁ es = some (s', rest) ∧
      out = first ++ rest := by
  simp only [run]
  cases hstep : m.step s e with
  | none => simp
  | some taken =>
    obtain ⟨s₁, first⟩ := taken
    constructor
    · intro h
      obtain ⟨⟨s₂, rest⟩, hrest, heq⟩ := Option.map_eq_some_iff.mp h
      obtain ⟨rfl, rfl⟩ := Prod.mk.inj heq
      exact ⟨s₁, first, rest, rfl, hrest, rfl⟩
    · rintro ⟨s₂, first', rest, hfirst, hrest, rfl⟩
      obtain ⟨rfl, rfl⟩ := Prod.mk.inj (Option.some.inj hfirst)
      simp [hrest]

/-- One run after the other. -/
theorem run_append {s₁ : S} {es' : List E} {out' : List O} (h : m.run s es = some (s₁, out))
    (h' : m.run s₁ es' = some (s', out')) : m.run s (es ++ es') = some (s', out ++ out') := by
  induction es generalizing s out with
  | nil =>
    obtain ⟨rfl, rfl⟩ := Prod.mk.inj (Option.some.inj h)
    exact h'
  | cons e es ih =>
    obtain ⟨s₂, first, rest, hstep, hrest, rfl⟩ := run_cons.mp h
    exact run_cons.mpr ⟨s₂, first, rest ++ out', hstep, ih hrest, List.append_assoc ..⟩

/-- The steps of one run count beside those of the other. -/
theorem count_append {counts : S → E → Bool} {s₁ : S} {es' : List E}
    (h : m.run s es = some (s₁, out)) :
    m.count counts s (es ++ es') = m.count counts s es + m.count counts s₁ es' := by
  induction es generalizing s out with
  | nil =>
    obtain ⟨rfl, -⟩ := Prod.mk.inj (Option.some.inj h)
    simp [count]
  | cons e es ih =>
    obtain ⟨s₂, first, rest, hstep, hrest, -⟩ := run_cons.mp h
    simp only [List.cons_append, count, hstep]
    rw [ih hrest, Nat.add_assoc]

/-- **An invariant** that may count steps. -/
theorem run_invariant {counts : S → E → Bool} {I : S → Nat → Prop}
    (hstep : ∀ s n e s' out, I s n → m.step s e = some (s', out) →
      I s' (n + if counts s e then 1 else 0))
    {n : Nat} (hs : I s n) (h : m.run s es = some (s', out)) : I s' (n + m.count counts s es) := by
  induction es generalizing s n out with
  | nil =>
    obtain ⟨rfl, -⟩ := Prod.mk.inj (Option.some.inj h)
    exact hs
  | cons e es ih =>
    obtain ⟨s₁, first, rest, hfirst, hrest, -⟩ := run_cons.mp h
    have hn : n + m.count counts s (e :: es) =
        (n + if counts s e then 1 else 0) + m.count counts s₁ es := by
      simp only [count, hfirst]
      omega
    rw [hn]
    exact ih (hstep s n e s₁ first hs hfirst) hrest

/-- **A relation** between a state and a later one, as long as the events admit it. -/
theorem run_relates {admits : E → Prop} {R : S → List O → S → Prop} (hrefl : ∀ s, R s [] s)
    (hstep : ∀ s e s₁ first rest s', admits e → m.step s e = some (s₁, first) → R s₁ rest s' →
      R s (first ++ rest) s')
    (hadmits : ∀ e ∈ es, admits e) (h : m.run s es = some (s', out)) : R s out s' := by
  induction es generalizing s out with
  | nil =>
    obtain ⟨rfl, rfl⟩ := Prod.mk.inj (Option.some.inj h)
    exact hrefl s
  | cons e es ih =>
    obtain ⟨s₁, first, rest, hfirst, hrest, rfl⟩ := run_cons.mp h
    have hrest := ih (fun e he => hadmits e (List.mem_cons_of_mem _ he)) hrest
    exact hstep s e s₁ first rest s' (hadmits e List.mem_cons_self) hfirst hrest

end Machine

end Effects
