import AppPort.Lib.Table

/-!
# Unique indexes

Records that are looked up by a property instead of their id, such as a name. Not every
record has it. Where no two records have the same (`Unique`), looking one up is a
function of the table, and every write says what it does to that function.
-/

namespace Effects.Table

variable {κ α ι : Type} [DecidableEq ι] {index : α → Option ι}

/-- The first record with this property. -/
def lookup (index : α → Option ι) (t : Table κ α) (i : ι) : Option α :=
  (t.find fun a => index a == some i).head?

/-- No two records have the same property. -/
def Unique (index : α → Option ι) (t : Table κ α) : Prop :=
  ∀ k k' a a' i, t.get k = some a → t.get k' = some a' → index a = some i → index a' = some i → k = k'

theorem lookup_eq_none {t : Table κ α} {i : ι} :
    t.lookup index i = none ↔ ∀ k a, t.get k = some a → index a ≠ some i := by
  unfold lookup
  rw [List.head?_eq_none_iff, List.eq_nil_iff_forall_not_mem]
  constructor
  · intro h k a hget hindex
    exact h a (mem_find.mpr ⟨⟨k, hget⟩, by simp [hindex]⟩)
  · intro h a hmem
    obtain ⟨⟨k, hget⟩, hindex⟩ := mem_find.mp hmem
    exact h k a hget (by simpa using hindex)

/-- What is looked up is stored, and has the property. -/
theorem of_lookup {t : Table κ α} {i : ι} {a : α} (h : t.lookup index i = some a) :
    (∃ k, t.get k = some a) ∧ index a = some i := by
  obtain ⟨hstored, hindex⟩ := mem_find.mp (List.mem_of_head? h)
  exact ⟨hstored, by simpa using hindex⟩

/-- What is stored with the property is looked up. -/
theorem Unique.lookup {t : Table κ α} (h : t.Unique index) {k : κ} {a : α} {i : ι}
    (hget : t.get k = some a) (hindex : index a = some i) : t.lookup index i = some a := by
  cases hlookup : t.lookup index i with
  | none => exact absurd hindex (lookup_eq_none.mp hlookup k a hget)
  | some b =>
    obtain ⟨⟨k', hget'⟩, hindex'⟩ := of_lookup hlookup
    obtain rfl := h k k' a b i hget hget' hindex hindex'
    rw [hget] at hget'
    exact hget'.symm

/-- Tables that store the same records with properties look the same up. -/
theorem Unique.congr {t t' : Table κ α} (h : t.Unique index)
    (hsame : ∀ k a i, index a = some i → (t'.get k = some a ↔ t.get k = some a)) :
    t'.Unique index ∧ ∀ i, t'.lookup index i = t.lookup index i := by
  have hunique : t'.Unique index := fun k k' a a' i hget hget' hi hi' =>
    h k k' a a' i ((hsame k a i hi).mp hget) ((hsame k' a' i hi').mp hget') hi hi'
  refine ⟨hunique, fun i => ?_⟩
  cases hlookup : t.lookup index i with
  | none =>
    refine lookup_eq_none.mpr fun k a hget hindex => ?_
    exact lookup_eq_none.mp hlookup k a ((hsame k a i hindex).mp hget) hindex
  | some a =>
    obtain ⟨⟨k, hget⟩, hindex⟩ := of_lookup hlookup
    exact hunique.lookup ((hsame k a i hindex).mpr hget) hindex

variable [DecidableEq κ]

/-- **A record is written** in place of one with its property, or where none has it. -/
theorem Unique.put {t : Table κ α} (h : t.Unique index) {k : κ} {a : α} {i : ι}
    (hindex : index a = some i)
    (hold : (t.get k = none ∧ t.lookup index i = none) ∨ ∃ b, t.get k = some b ∧ index b = some i) :
    (t.put k a).Unique index ∧
      ∀ j, (t.put k a).lookup index j = if j = i then some a else t.lookup index j := by
  -- another record with the property is not there
  have honly : ∀ k' a', k' ≠ k → t.get k' = some a' → index a' ≠ some i := by
    intro k' a' hne hget' hindex'
    rcases hold with ⟨-, hnone⟩ | ⟨b, hget, hindexb⟩
    · exact lookup_eq_none.mp hnone k' a' hget' hindex'
    · exact hne (h k' k a' b i hget' hget hindex' hindexb)
  have hunique : (t.put k a).Unique index := by
    intro k₁ k₂ a₁ a₂ j hget₁ hget₂ hi₁ hi₂
    rw [get_put] at hget₁ hget₂
    by_cases hk₁ : k₁ = k <;> by_cases hk₂ : k₂ = k
    · rw [hk₁, hk₂]
    · rw [if_pos hk₁] at hget₁
      rw [if_neg hk₂] at hget₂
      obtain rfl := Option.some.inj hget₁
      rw [hindex] at hi₁
      exact absurd (hi₂.trans hi₁.symm) (honly k₂ a₂ hk₂ hget₂)
    · rw [if_neg hk₁] at hget₁
      rw [if_pos hk₂] at hget₂
      obtain rfl := Option.some.inj hget₂
      rw [hindex] at hi₂
      exact absurd (hi₁.trans hi₂.symm) (honly k₁ a₁ hk₁ hget₁)
    · rw [if_neg hk₁] at hget₁
      rw [if_neg hk₂] at hget₂
      exact h k₁ k₂ a₁ a₂ j hget₁ hget₂ hi₁ hi₂
  refine ⟨hunique, fun j => ?_⟩
  by_cases hj : j = i
  · rw [if_pos hj, hj]
    exact hunique.lookup (get_put_same ..) hindex
  · rw [if_neg hj]
    cases hlookup : t.lookup index j with
    | none =>
      refine lookup_eq_none.mpr fun k' a' hget' hindex' => ?_
      rw [get_put] at hget'
      split at hget'
      · obtain rfl := Option.some.inj hget'
        rw [hindex] at hindex'
        exact hj (Option.some.inj hindex').symm
      · exact lookup_eq_none.mp hlookup k' a' hget' hindex'
    | some b =>
      obtain ⟨⟨k', hget'⟩, hindex'⟩ := of_lookup hlookup
      refine hunique.lookup (k := k') ?_ hindex'
      rw [get_put_other]
      · exact hget'
      · rintro rfl
        rcases hold with ⟨hnone, -⟩ | ⟨b', hget, hindexb⟩
        · rw [hnone] at hget'
          cases hget'
        · rw [hget] at hget'
          obtain rfl := Option.some.inj hget'
          rw [hindexb] at hindex'
          exact hj (Option.some.inj hindex').symm

/-- **A record is removed.** -/
theorem Unique.erase {t : Table κ α} (h : t.Unique index) {k : κ} {a : α} {i : ι}
    (hget : t.get k = some a) (hindex : index a = some i) :
    (t.erase k).Unique index ∧
      ∀ j, (t.erase k).lookup index j = if j = i then none else t.lookup index j := by
  have hkept : ∀ k' b, (t.erase k).get k' = some b → k' ≠ k ∧ t.get k' = some b := by
    intro k' b hget'
    rw [get_erase] at hget'
    split at hget'
    · cases hget'
    · next hne => exact ⟨hne, hget'⟩
  have hunique : (t.erase k).Unique index := fun k₁ k₂ a₁ a₂ j hget₁ hget₂ =>
    h k₁ k₂ a₁ a₂ j (hkept k₁ a₁ hget₁).2 (hkept k₂ a₂ hget₂).2
  refine ⟨hunique, fun j => ?_⟩
  by_cases hj : j = i
  · rw [if_pos hj, hj]
    refine lookup_eq_none.mpr fun k' b hget' hindex' => ?_
    obtain ⟨hne, hget'⟩ := hkept k' b hget'
    exact hne (h k' k b a i hget' hget hindex' hindex)
  · rw [if_neg hj]
    cases hlookup : t.lookup index j with
    | none =>
      refine lookup_eq_none.mpr fun k' b hget' hindex' => ?_
      exact lookup_eq_none.mp hlookup k' b (hkept k' b hget').2 hindex'
    | some b =>
      obtain ⟨⟨k', hget'⟩, hindex'⟩ := of_lookup hlookup
      refine hunique.lookup (k := k') ?_ hindex'
      rw [get_erase, if_neg]
      · exact hget'
      · rintro rfl
        rw [hget] at hget'
        obtain rfl := Option.some.inj hget'
        rw [hindex] at hindex'
        exact hj (Option.some.inj hindex').symm

/-! ## Records under their own ids -/

/-- Every record is stored under its id, and no two have the same property. -/
structure Indexed (idOf : α → κ) (index : α → Option ι) (t : Table κ α) : Prop where
  keyed : ∀ k a, t.get k = some a → idOf a = k
  unique : t.Unique index

variable {idOf : α → κ}

omit [DecidableEq ι] [DecidableEq κ] in
theorem indexed_empty : (empty : Table κ α).Indexed idOf index where
  keyed k a hget := by
    rw [get_empty] at hget
    cases hget
  unique k k' a a' i hget := by
    rw [get_empty] at hget
    cases hget

omit [DecidableEq κ] in
/-- What is looked up is stored under its id. -/
theorem Indexed.of_lookup {t : Table κ α} (h : t.Indexed idOf index) {i : ι} {a : α}
    (hlookup : t.lookup index i = some a) : t.get (idOf a) = some a ∧ index a = some i := by
  obtain ⟨⟨k, hget⟩, hindex⟩ := Table.of_lookup hlookup
  rw [h.keyed k a hget]
  exact ⟨hget, hindex⟩

/-- A record is written under its id, in place of the one with its property or where none
has it. -/
theorem Indexed.put {t : Table κ α} (h : t.Indexed idOf index) {a : α} {i : ι}
    (hindex : index a = some i)
    (hold : (t.get (idOf a) = none ∧ t.lookup index i = none) ∨
      ∃ b, t.get (idOf a) = some b ∧ index b = some i) :
    (t.put (idOf a) a).Indexed idOf index ∧
      ∀ j, (t.put (idOf a) a).lookup index j = if j = i then some a else t.lookup index j := by
  obtain ⟨hunique, hlookup⟩ := h.unique.put hindex hold
  refine ⟨⟨fun k b hget => ?_, hunique⟩, hlookup⟩
  rw [get_put] at hget
  by_cases hk : k = idOf a
  · rw [if_pos hk] at hget
    rw [← Option.some.inj hget, hk]
  · rw [if_neg hk] at hget
    exact h.keyed k b hget

/-- A record that is looked up is removed. -/
theorem Indexed.erase {t : Table κ α} (h : t.Indexed idOf index) {a : α} {i : ι}
    (hlookup : t.lookup index i = some a) :
    (t.erase (idOf a)).Indexed idOf index ∧
      ∀ j, (t.erase (idOf a)).lookup index j = if j = i then none else t.lookup index j := by
  obtain ⟨hget, hindex⟩ := h.of_lookup hlookup
  obtain ⟨hunique, hlookup'⟩ := h.unique.erase hget hindex
  refine ⟨⟨fun k b hget' => ?_, hunique⟩, hlookup'⟩
  rw [get_erase] at hget'
  by_cases hk : k = idOf a
  · rw [if_pos hk] at hget'
    cases hget'
  · rw [if_neg hk] at hget'
    exact h.keyed k b hget'

end Effects.Table
