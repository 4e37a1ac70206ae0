import Mathlib.Data.Finset.Basic
import Mathlib.Data.List.Basic

/-!
# Versioned tables — optimistic concurrency on one collection

A `Table` is a finite collection of records by id. A record carries a version,
and the one conditional write, `updateIfVersion`, merges a change into the stored
record and bumps its version exactly when the stored version is the expected one.

The facts a reader of such a table may rely on while others write are collected
in `Table.Fence`: versions only grow, and a version that is still stored still
holds the record it was read with. Every write that goes through this interface
moves the table forward along `Fence`, and `updateIfVersion_of_fence` is its use:
a conditional write that succeeds met the very record that was read.
-/

namespace Effects

/-- Records that carry the version of their last write. -/
class Versioned (α : Type) where
  version : α → Nat
  withVersion : α → Nat → α
  version_withVersion : ∀ a v, version (withVersion a v) = v

open Versioned

attribute [simp] Versioned.version_withVersion

/-- A finite collection of records by id. -/
structure Table (κ α : Type) where
  /-- The ids ever written, in insertion order. -/
  keys : List κ
  /-- The record stored under an id. -/
  get : κ → Option α
  /-- Every stored record is under a listed id. -/
  mem_keys : ∀ {k a}, get k = some a → k ∈ keys

namespace Table

variable {κ α : Type}

/-- The table with no records. -/
def empty : Table κ α := ⟨[], fun _ => none, fun h => by cases h⟩

@[simp] theorem get_empty (k : κ) : (empty : Table κ α).get k = none := rfl

/-- All records that satisfy `p`, in insertion order of their ids. -/
def find (t : Table κ α) (p : α → Bool) : List α :=
  (t.keys.filterMap t.get).filter p

theorem mem_find {t : Table κ α} {p : α → Bool} {a : α} :
    a ∈ t.find p ↔ (∃ k, t.get k = some a) ∧ p a = true := by
  unfold find
  rw [List.mem_filter, List.mem_filterMap]
  constructor
  · rintro ⟨⟨k, -, hk⟩, hp⟩
    exact ⟨⟨k, hk⟩, hp⟩
  · rintro ⟨⟨k, hk⟩, hp⟩
    exact ⟨⟨k, t.mem_keys hk, hk⟩, hp⟩

/-- Records that are found differ where what is asked of them tells their ids apart. -/
theorem nodup_find_map {β : Type} {t : Table κ α} (hkeys : t.keys.Nodup) {p : α → Bool} {f : α → β}
    (hf : ∀ k k' a a', t.get k = some a → t.get k' = some a' → p a = true → p a' = true →
      f a = f a' → k = k') : ((t.find p).map f).Nodup := by
  unfold find
  rw [List.Nodup, List.pairwise_map, List.pairwise_filter, List.pairwise_filterMap]
  refine hkeys.imp ?_
  intro k k' hne a ha a' ha' hp hp' heq
  exact hne (hf k k' a a' ha ha' hp hp' heq)

/-- What stays true of what a reader saw, while others write. -/
def Fence [Versioned α] (t t' : Table κ α) : Prop :=
  ∀ k a, t.get k = some a → ∃ a', t'.get k = some a' ∧ version a ≤ version a' ∧
    (version a' = version a → a' = a)

theorem Fence.refl [Versioned α] (t : Table κ α) : t.Fence t :=
  fun _ a h => ⟨a, h, Nat.le_refl _, fun _ => rfl⟩

theorem Fence.trans [Versioned α] {t₁ t₂ t₃ : Table κ α} (h₁₂ : t₁.Fence t₂) (h₂₃ : t₂.Fence t₃) :
    t₁.Fence t₃ := by
  intro k a h
  obtain ⟨b, hb, hab, hb'⟩ := h₁₂ k a h
  obtain ⟨c, hc, hbc, hc'⟩ := h₂₃ k b hb
  refine ⟨c, hc, Nat.le_trans hab hbc, fun hv => ?_⟩
  -- the version did not move, so it did not move in either half
  have hba : version b = version a := Nat.le_antisymm (hv ▸ hbc) hab
  rw [hc' (hv.trans hba.symm), hb' hba]

/-- `a` was read under `k` some time ago: what is stored there is as new, and is `a` while
its version is. -/
def Seen [Versioned α] (t : Table κ α) (k : κ) (a : α) : Prop :=
  ∃ a', t.get k = some a' ∧ version a ≤ version a' ∧ (version a' = version a → a' = a)

theorem Seen.of_get [Versioned α] {t : Table κ α} {k : κ} {a : α} (h : t.get k = some a) :
    t.Seen k a := ⟨a, h, Nat.le_refl _, fun _ => rfl⟩

theorem Seen.fence [Versioned α] {t t' : Table κ α} {k : κ} {a : α} (h : t.Seen k a)
    (hfence : t.Fence t') : t'.Seen k a := by
  obtain ⟨b, hb, hab, hb'⟩ := h
  obtain ⟨c, hc, hbc, hc'⟩ := hfence k b hb
  refine ⟨c, hc, Nat.le_trans hab hbc, fun hv => ?_⟩
  have hba : version b = version a := Nat.le_antisymm (hv ▸ hbc) hab
  rw [hc' (hv.trans hba.symm), hb' hba]

/-- Under the version that was read stands what was read. -/
theorem Seen.current [Versioned α] {t : Table κ α} {k : κ} {a b : α} (h : t.Seen k a)
    (hget : t.get k = some b) (hv : version b = version a) : b = a := by
  obtain ⟨a', hget', -, hsame⟩ := h
  rw [hget] at hget'
  obtain rfl := Option.some.inj hget'
  exact hsame hv

variable [DecidableEq κ]

/-- Write a record under an id, whatever is stored there. -/
def put (t : Table κ α) (k : κ) (a : α) : Table κ α where
  keys := if k ∈ t.keys then t.keys else t.keys ++ [k]
  get := fun k' => if k' = k then some a else t.get k'
  mem_keys := by
    intro k' b h
    by_cases hk : k' = k
    · subst hk
      split
      · assumption
      · simp
    · rw [if_neg hk] at h
      have hmem := t.mem_keys h
      split
      · exact hmem
      · exact List.mem_append_left _ hmem

theorem get_put (t : Table κ α) (k k' : κ) (a : α) :
    (t.put k a).get k' = if k' = k then some a else t.get k' := rfl

@[simp] theorem get_put_same (t : Table κ α) (k : κ) (a : α) : (t.put k a).get k = some a :=
  if_pos rfl

theorem get_put_other (t : Table κ α) {k k' : κ} (a : α) (h : k' ≠ k) :
    (t.put k a).get k' = t.get k' := if_neg h

theorem nodup_put {t : Table κ α} (h : t.keys.Nodup) (k : κ) (a : α) : (t.put k a).keys.Nodup := by
  show (if k ∈ t.keys then t.keys else t.keys ++ [k]).Nodup
  split
  · exact h
  · next hk =>
    refine List.nodup_append.mpr ⟨h, List.nodup_singleton k, fun x hx y hy => ?_⟩
    rw [List.mem_singleton.mp hy]
    rintro rfl
    exact hk hx

/-- Remove whatever is stored under an id. -/
def erase (t : Table κ α) (k : κ) : Table κ α where
  keys := t.keys
  get := fun k' => if k' = k then none else t.get k'
  mem_keys := by
    intro k' b h
    by_cases hk : k' = k
    · rw [if_pos hk] at h
      cases h
    · rw [if_neg hk] at h
      exact t.mem_keys h

theorem get_erase (t : Table κ α) (k k' : κ) :
    (t.erase k).get k' = if k' = k then none else t.get k' := rfl

/-- Insert a record under an id nothing is stored under (`requireAbsent`). -/
def insertAbsent (t : Table κ α) (k : κ) (a : α) : Option (Table κ α) :=
  match t.get k with
  | none => some (t.put k a)
  | some _ => none

theorem insertAbsent_eq_some {t t' : Table κ α} {k : κ} {a : α}
    (h : t.insertAbsent k a = some t') : t.get k = none ∧ t' = t.put k a := by
  unfold insertAbsent at h
  split at h
  · next hk => exact ⟨hk, (Option.some.inj h).symm⟩
  · cases h

variable [Versioned α]

/-- Merge a change into the stored record and bump its version, exactly when the
stored version is the expected one. -/
def updateIfVersion (t : Table κ α) (k : κ) (expected : Nat) (change : α → α) :
    Option α × Table κ α :=
  match t.get k with
  | some a =>
    if version a = expected then
      let a' := withVersion (change a) (version a + 1)
      (some a', t.put k a')
    else (none, t)
  | none => (none, t)

/-- What a conditional write did. -/
theorem updateIfVersion_eq {t t' : Table κ α} {k : κ} {v : Nat} {change : α → α} {r : Option α}
    (h : t.updateIfVersion k v change = (r, t')) :
    (∃ a, t.get k = some a ∧ version a = v ∧
      r = some (withVersion (change a) (v + 1)) ∧ t' = t.put k (withVersion (change a) (v + 1))) ∨
    (r = none ∧ t' = t) := by
  unfold updateIfVersion at h
  split at h
  · next a hk =>
    split at h
    · next hv =>
      refine .inl ⟨a, hk, hv, ?_⟩
      cases h
      rw [hv]
      exact ⟨rfl, rfl⟩
    · cases h
      exact .inr ⟨rfl, rfl⟩
  · cases h
    exact .inr ⟨rfl, rfl⟩

/-- What a conditional write that wrote nothing met. -/
theorem updateIfVersion_stale {t t' : Table κ α} {k : κ} {v : Nat} {change : α → α} {a : α}
    (h : t.updateIfVersion k v change = (none, t')) (hget : t.get k = some a) : version a ≠ v := by
  intro hv
  unfold updateIfVersion at h
  rw [hget] at h
  dsimp only at h
  rw [if_pos hv] at h
  cases h

theorem fence_insertAbsent {t t' : Table κ α} {k : κ} {a : α}
    (h : t.insertAbsent k a = some t') : t.Fence t' := by
  obtain ⟨hk, rfl⟩ := insertAbsent_eq_some h
  intro k' a' h'
  by_cases hkk : k' = k
  · subst hkk
    rw [hk] at h'
    cases h'
  · exact ⟨a', by rw [get_put_other _ _ hkk]; exact h', Nat.le_refl _, fun _ => rfl⟩

/-- A newer record in place of one that is stored. -/
theorem fence_put {t : Table κ α} {k : κ} {a b : α} (hget : t.get k = some a)
    (hv : version a < version b) : t.Fence (t.put k b) := by
  intro k' a' h'
  by_cases hk : k' = k
  · subst hk
    rw [hget] at h'
    obtain rfl := Option.some.inj h'
    exact ⟨b, get_put_same .., hv.le, fun heq => absurd heq (Nat.ne_of_gt hv)⟩
  · exact ⟨a', by rw [get_put_other _ _ hk]; exact h', Nat.le_refl _, fun _ => rfl⟩

theorem fence_updateIfVersion {t t' : Table κ α} {k : κ} {v : Nat} {change : α → α}
    {r : Option α} (h : t.updateIfVersion k v change = (r, t')) : t.Fence t' := by
  rcases updateIfVersion_eq h with ⟨a, hk, hv, -, rfl⟩ | ⟨-, rfl⟩
  · intro k' a' h'
    by_cases hkk : k' = k
    · subst hkk
      rw [hk] at h'
      obtain rfl := Option.some.inj h'
      refine ⟨_, get_put_same .., ?_, fun heq => ?_⟩
      · rw [version_withVersion, hv]
        exact Nat.le_succ v
      · rw [version_withVersion, hv] at heq
        exact absurd heq (Nat.succ_ne_self v)
    · exact ⟨a', by rw [get_put_other _ _ hkk]; exact h', Nat.le_refl _, fun _ => rfl⟩
  · exact Fence.refl _

/-- **A conditional write meets what was read.** If `a` was read under `k` and the
write expecting its version succeeds later, the record it merged into is `a`. -/
theorem updateIfVersion_of_fence {t₀ t t' : Table κ α} {k : κ} {a b : α} {change : α → α}
    (hread : t₀.get k = some a) (hfence : t₀.Fence t)
    (h : t.updateIfVersion k (version a) change = (some b, t')) :
    t.get k = some a ∧ b = withVersion (change a) (version a + 1) ∧ t' = t.put k b := by
  rcases updateIfVersion_eq h with ⟨a', hk, hv, hr, rfl⟩ | ⟨hr, -⟩
  · obtain ⟨c, hc, -, hc'⟩ := hfence k a hread
    rw [hk] at hc
    obtain rfl := Option.some.inj hc
    obtain rfl := hc' hv
    obtain rfl := Option.some.inj hr
    exact ⟨hk, rfl, rfl⟩
  · cases hr

end Table

end Effects
