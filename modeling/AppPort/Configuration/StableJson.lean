import Mathlib.Data.List.Lex
import AppPort.Lib.JsonParse

/-!
# Comparing schedule payloads

`stableJson` writes a JSON value with the keys of its objects sorted, and import takes two
schedule payloads for the same when these texts are equal. The replacer rebuilds every
object with `Object.fromEntries`, so that integer-like keys still come first and
`__proto__` is a key like any other; neither drops or merges an entry.
-/

namespace AppPort

open Effects

section values

variable {ν β : Type}

/-- `Object.keys(item).sort()`, each key with its value: by code units. -/
def sortEntries (entries : List (Units × β)) : List (Units × β) :=
  entries.mergeSort fun e e' => decide (e.1 ≤ e'.1)

/-- `Object.fromEntries(Object.keys(item).sort().map((key) => [key, item[key]]))`. -/
def rebuild (entries : List (Units × β)) : List (Units × β) := fromEntries (sortEntries entries)

mutual

/-- What `JSON.stringify` writes under the replacer: it is handed a value, and then the
properties of what it made of it, so every object is rebuilt. -/
def replaced : Json ν → Json ν
  | .arr items => .arr (replacedItems items)
  | .obj entries => .obj (rebuild (replacedEntries entries))
  | .null => .null
  | .bool b => .bool b
  | .num x => .num x
  | .str s => .str s

def replacedItems : List (Json ν) → List (Json ν)
  | [] => []
  | v :: rest => replaced v :: replacedItems rest

def replacedEntries : List (Units × Json ν) → List (Units × Json ν)
  | [] => []
  | (key, v) :: rest => (key, replaced v) :: replacedEntries rest

end

@[simp] theorem replacedItems_eq (items : List (Json ν)) :
    replacedItems items = items.map replaced := by
  induction items with
  | nil => rfl
  | cons v rest ih => rw [replacedItems, ih, List.map_cons]

@[simp] theorem replacedEntries_eq (entries : List (Units × Json ν)) :
    replacedEntries entries = entries.map fun e => (e.1, replaced e.2) := by
  induction entries with
  | nil => rfl
  | cons e rest ih =>
    rcases e with ⟨key, v⟩
    rw [replacedEntries, ih, List.map_cons]

/-- **Equality of JSON values up to the order of object keys.** -/
inductive SameJson : Json ν → Json ν → Prop where
  | null : SameJson .null .null
  | bool (b : Bool) : SameJson (.bool b) (.bool b)
  | num (x : ν) : SameJson (.num x) (.num x)
  | str (s : Units) : SameJson (.str s) (.str s)
  | arr {items items' : List (Json ν)} (h : List.Forall₂ SameJson items items') :
    SameJson (.arr items) (.arr items')
  | obj {entries entries' : List (Units × Json ν)}
    (keys : ∀ key, key ∈ entries.map Prod.fst ↔ key ∈ entries'.map Prod.fst)
    (values : ∀ e ∈ entries, ∀ e' ∈ entries', e.1 = e'.1 → SameJson e.2 e'.2) :
    SameJson (.obj entries) (.obj entries')

/-! ## Rebuilding an object -/

theorem sortEntries_perm (entries : List (Units × β)) : (sortEntries entries).Perm entries :=
  List.mergeSort_perm _ _

/-- Rebuilding neither drops nor merges an entry. -/
theorem rebuild_perm {entries : List (Units × β)} (h : (entries.map Prod.fst).Nodup) :
    (rebuild entries).Perm entries := by
  have hsorted := sortEntries_perm entries
  have hnodup : ((sortEntries entries).map Prod.fst).Nodup :=
    (hsorted.map Prod.fst).nodup_iff.mpr h
  exact (fromEntries_perm hnodup).trans hsorted

theorem sortEntries_pairwise (entries : List (Units × β)) :
    (sortEntries entries).Pairwise fun e e' => e.1 ≤ e'.1 := by
  have htrans : ∀ a b c : Units × β, decide (a.1 ≤ b.1) = true → decide (b.1 ≤ c.1) = true →
      decide (a.1 ≤ c.1) = true := by
    intro a b c hab hbc
    exact decide_eq_true (le_trans (of_decide_eq_true hab) (of_decide_eq_true hbc))
  have htotal : ∀ a b : Units × β, (decide (a.1 ≤ b.1) || decide (b.1 ≤ a.1)) = true := by
    intro a b
    simpa using le_total a.1 b.1
  exact (List.pairwise_mergeSort htrans htotal entries).imp fun h => of_decide_eq_true h

/-- **Rebuilding forgets the order.** The same entries with distinct keys are rebuilt the
same way: sorted they are one list, whatever order the properties then take. -/
theorem rebuild_of_perm {entries entries' : List (Units × β)}
    (hnodup : (entries.map Prod.fst).Nodup) (h : entries.Perm entries') :
    rebuild entries = rebuild entries' := by
  have hperm : (sortEntries entries).Perm (sortEntries entries') :=
    (sortEntries_perm entries).trans (h.trans (sortEntries_perm entries').symm)
  have hsorted : sortEntries entries = sortEntries entries' := by
    apply hperm.eq_of_pairwise _ (sortEntries_pairwise entries) (sortEntries_pairwise entries')
    intro e e' he he' hle hle'
    have hmem : e' ∈ entries := h.mem_iff.mpr ((sortEntries_perm entries').mem_iff.mp he')
    exact List.inj_on_of_nodup_map hnodup ((sortEntries_perm entries).mem_iff.mp he) hmem
      (le_antisymm hle hle')
  rw [rebuild, rebuild, hsorted]

end values

section compare

variable {ν : Type}

/-- The keys of the rebuilt values are the object's own. -/
theorem map_fst_replaced (entries : List (Units × Json ν)) :
    (entries.map fun e => (e.1, replaced e.2)).map Prod.fst = entries.map Prod.fst := by
  rw [List.map_map]
  rfl

/-- What is written is a value of its own. -/
theorem replaced_wellFormed {v : Json ν} (h : v.WellFormed) : (replaced v).WellFormed := by
  induction v using Json.induct with
  | null => exact .null
  | bool b => exact .bool b
  | num x => exact .num x
  | str s => exact .str s
  | arr items ih =>
    cases h with
    | arr hitems =>
    rw [replaced, replacedItems_eq]
    constructor
    intro v hv
    obtain ⟨u, hu, heq⟩ := List.mem_map.mp hv
    rw [← heq]
    exact ih u hu (hitems u hu)
  | obj entries ih =>
    cases h with
    | obj hown hentries =>
    rw [replaced, replacedEntries_eq]
    constructor
    · exact ownOrder_fromEntries _
    · intro e he
      have hnodup := hown.nodup
      rw [← map_fst_replaced] at hnodup
      obtain ⟨u, hu, heq⟩ := List.mem_map.mp ((rebuild_perm hnodup).mem_iff.mp he)
      rw [← heq]
      exact ih u hu (hentries u hu)

/-- The same values are rebuilt the same way. -/
theorem replaced_of_same {v w : Json ν} (hv : v.WellFormed) (hw : w.WellFormed)
    (h : SameJson v w) : replaced v = replaced w := by
  induction v using Json.induct generalizing w with
  | null | bool | num | str =>
    cases h
    rfl
  | arr items ih =>
    cases h with
    | arr hall =>
    cases hv with
    | arr hitems =>
    cases hw with
    | arr hitems' =>
    rw [replaced, replaced, replacedItems_eq, replacedItems_eq]
    congr 1
    induction hall with
    | nil => rfl
    | cons hfirst _ ihrest =>
      rw [List.map_cons, List.map_cons,
        ih _ List.mem_cons_self (hitems _ List.mem_cons_self) (hitems' _ List.mem_cons_self) hfirst]
      congr 1
      apply ihrest
      · exact fun v hv => ih v (List.mem_cons_of_mem _ hv)
      · exact fun v hv => hitems v (List.mem_cons_of_mem _ hv)
      · exact fun v hv => hitems' v (List.mem_cons_of_mem _ hv)
  | obj entries ih =>
    cases h with
    | obj keys values =>
    cases hv with
    | obj hown hentries =>
    cases hw with
    | obj hown' hentries' =>
    rw [replaced, replaced, replacedEntries_eq, replacedEntries_eq]
    have hnodup := hown.nodup
    rw [← map_fst_replaced] at hnodup
    have hnodup' := hown'.nodup
    rw [← map_fst_replaced] at hnodup'
    congr 1
    apply rebuild_of_perm hnodup
    rw [List.perm_ext_iff_of_nodup hnodup.of_map hnodup'.of_map]
    intro x
    constructor
    · intro hx
      obtain ⟨e, he, heq⟩ := List.mem_map.mp hx
      obtain ⟨e', he', hkey⟩ := List.mem_map.mp ((keys e.1).mp (List.mem_map_of_mem he))
      have hsame := values e he e' he' hkey.symm
      apply List.mem_map.mpr
      refine ⟨e', he', ?_⟩
      rw [← heq, hkey, ih e he (hentries e he) (hentries' e' he') hsame]
    · intro hx
      obtain ⟨e', he', heq⟩ := List.mem_map.mp hx
      obtain ⟨e, he, hkey⟩ := List.mem_map.mp ((keys e'.1).mpr (List.mem_map_of_mem he'))
      have hsame := values e he e' he' hkey
      apply List.mem_map.mpr
      refine ⟨e, he, ?_⟩
      rw [← heq, hkey, ih e he (hentries e he) (hentries' e' he') hsame]

/-- Values that are rebuilt the same way are the same. -/
theorem same_of_replaced {v w : Json ν} (hv : v.WellFormed) (hw : w.WellFormed)
    (h : replaced v = replaced w) : SameJson v w := by
  induction v using Json.induct generalizing w with
  | null =>
    cases w <;> simp only [replaced] at h <;> cases h
    exact .null
  | bool b =>
    cases w <;> simp only [replaced] at h <;> cases h
    exact .bool b
  | num x =>
    cases w <;> simp only [replaced] at h <;> cases h
    exact .num x
  | str s =>
    cases w <;> simp only [replaced] at h <;> cases h
    exact .str s
  | arr items ih =>
    cases w with
    | arr items' =>
      simp only [replaced, replacedItems_eq, Json.arr.injEq] at h
      cases hv with
      | arr hitems =>
      cases hw with
      | arr hitems' =>
      constructor
      induction items generalizing items' with
      | nil =>
        rw [List.map_nil] at h
        rw [List.map_eq_nil_iff.mp h.symm]
        exact .nil
      | cons x rest ihrest =>
        cases items' with
        | nil => cases h
        | cons x' rest' =>
          obtain ⟨hfirst, htail⟩ := List.cons.inj h
          constructor
          · exact ih x List.mem_cons_self (hitems x List.mem_cons_self)
              (hitems' x' List.mem_cons_self) hfirst
          · apply ihrest
            · exact fun v hv => ih v (List.mem_cons_of_mem _ hv)
            · exact htail
            · exact fun v hv => hitems v (List.mem_cons_of_mem _ hv)
            · exact fun v hv => hitems' v (List.mem_cons_of_mem _ hv)
    | null | bool | num | str | obj =>
      simp only [replaced] at h
      cases h
  | obj entries ih =>
    cases w with
    | obj entries' =>
      simp only [replaced, replacedEntries_eq, Json.obj.injEq] at h
      cases hv with
      | obj hown hentries =>
      cases hw with
      | obj hown' hentries' =>
      have hnodup := hown.nodup
      rw [← map_fst_replaced] at hnodup
      have hnodup' := hown'.nodup
      rw [← map_fst_replaced] at hnodup'
      have hperm : (entries.map fun e => (e.1, replaced e.2)).Perm
          (entries'.map fun e => (e.1, replaced e.2)) := by
        have hleft := rebuild_perm hnodup
        rw [h] at hleft
        exact hleft.symm.trans (rebuild_perm hnodup')
      constructor
      · intro key
        have hkeys : key ∈ (entries.map fun e => (e.1, replaced e.2)).map Prod.fst ↔
            key ∈ (entries'.map fun e => (e.1, replaced e.2)).map Prod.fst :=
          (hperm.map Prod.fst).mem_iff
        rwa [map_fst_replaced, map_fst_replaced] at hkeys
      · intro e he e' he' hkey
        -- the entry of `w` with this key is the one `v`'s entry became
        have hmem := hperm.mem_iff.mp (List.mem_map_of_mem he)
        have hmem' : (e'.1, replaced e'.2) ∈ entries'.map fun e => (e.1, replaced e.2) :=
          List.mem_map_of_mem he'
        have heq := List.inj_on_of_nodup_map hnodup' hmem hmem' hkey
        exact ih e he (hentries e he) (hentries' e' he') (Prod.mk.inj heq).2
    | null | bool | num | str | arr =>
      simp only [replaced] at h
      cases h

variable [JsonNumber ν]

/-- `stableJson`. -/
def stableJson (v : Json ν) : Units := (replaced v).stringify

/-- `isObject`. -/
def isJsonObject : Json ν → Bool
  | .obj _ => true
  | .null | .bool _ | .num _ | .str _ | .arr _ => false

/-- `payloadOf`: anything but an object counts as the empty one. -/
def payloadOfJson (payload : Option (JsonValue ν)) : JsonValue ν :=
  match payload with
  | some v => if isJsonObject v.json then v else ⟨.obj [], .obj .nil nofun⟩
  | none => ⟨.obj [], .obj .nil nofun⟩

/-- Import leaves a schedule alone: a stored one in its slot has its payload. -/
def hasSamePayload (sameSlot : List (Option (JsonValue ν))) (payload : JsonValue ν) : Bool :=
  sameSlot.any fun candidate =>
    decide (stableJson (payloadOfJson candidate).json = stableJson payload.json)

/-- **Payloads are compared by what they hold.** For all JSON values the texts of
`stableJson` are equal exactly if the values are equal up to the order of object keys;
so import takes a schedule for unchanged exactly if one of its slot holds its payload. -/
theorem stableJson_eq_iff (v w : JsonValue ν) (sameSlot : List (Option (JsonValue ν))) :
    (stableJson v.json = stableJson w.json ↔ SameJson v.json w.json) ∧
      (hasSamePayload sameSlot w = true ↔
        ∃ candidate ∈ sameSlot, SameJson (payloadOfJson candidate).json w.json) := by
  have hiff : ∀ a b : JsonValue ν,
      stableJson a.json = stableJson b.json ↔ SameJson a.json b.json := by
    intro a b
    constructor
    · intro htext
      have hreplaced := stringify_injective (replaced_wellFormed a.wellFormed)
        (replaced_wellFormed b.wellFormed) htext
      exact same_of_replaced a.wellFormed b.wellFormed hreplaced
    · intro hsame
      rw [stableJson, stableJson, replaced_of_same a.wellFormed b.wellFormed hsame]
  constructor
  · exact hiff v w
  · simp [hasSamePayload, hiff]

end compare

end AppPort
