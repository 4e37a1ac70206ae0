import Mathlib.Data.Finset.Card
import Mathlib.Data.Set.Card
import AppPort.Notifications.Sensitive

/-!
# The credential boundary on object graphs

What a host hands to a notification is not a tree: objects are shared and may refer back
to themselves. `assertNoCredentials` walks the graph depth first with the set of objects it
has seen. A seen object is not entered again, also while it is still being walked, so
that a completed walk has to be told from one that skipped something: `FullyWalked` says of
every object seen that all of its contents were looked at.
-/

namespace AppPort

variable {ν : Type}

/-- A value: a string, a reference to an object, or one of the values without contents. -/
inductive GraphValue (ν : Type) where
  | str (s : String)
  | ref (object : ν)
  | null
  | undefined
  | bool (b : Bool)
  /-- Numbers, functions, symbols. -/
  | other

/-- What an object holds: the elements of an array, holes included, or the own enumerable
entries of another object, in order. -/
inductive ObjectNode (ν : Type) where
  | array (elements : List (Option (GraphValue ν)))
  | object (entries : List (String × GraphValue ν))

/-- An object graph: what each object holds. -/
abbrev ObjectGraph (ν : Type) := ν → ObjectNode ν

/-- `entry !== null && entry !== undefined && entry !== '' && entry !== false`, negated. -/
def GraphValue.isEmptyEntry : GraphValue ν → Bool
  | .null | .undefined | .bool false => true
  | .str s => s == ""
  | _ => false

/-- What a call comes to: nothing while the depth does not suffice, an error, or the
objects seen so far. -/
abbrev Walk (ν : Type) := Option (Except JsError (Finset ν))

/-- `value.forEach(…)`, from an index on; holes are skipped. -/
def assertEach (assert : GraphValue ν → String → Finset ν → Walk ν) (path : String) :
    Nat → List (Option (GraphValue ν)) → Finset ν → Walk ν
  | _, [], seen => some (.ok seen)
  | index, none :: rest, seen => assertEach assert path (index + 1) rest seen
  | index, some entry :: rest, seen =>
    match assert entry (path ++ "[" ++ toString index ++ "]") seen with
    | some (.ok seen') => assertEach assert path (index + 1) rest seen'
    | failed => failed

/-- The loop over `Object.entries(value)`. -/
def assertEntries (assert : GraphValue ν → String → Finset ν → Walk ν) (path : String) :
    List (String × GraphValue ν) → Finset ν → Walk ν
  | [], seen => some (.ok seen)
  | (key, entry) :: rest, seen =>
    let entryPath := path ++ "." ++ key
    if isSensitiveKey key && !entry.isEmptyEntry then some (.error (sensitiveDataError entryPath))
    else
      match assert entry entryPath seen with
      | some (.ok seen') => assertEntries assert path rest seen'
      | failed => failed

/-- `assertNoCredentials` on an object graph, down to a depth. -/
def assertNoCredentialsIn [DecidableEq ν] (graph : ObjectGraph ν) :
    Nat → GraphValue ν → String → Finset ν → Walk ν
  | 0, _, _, _ => none
  | depth + 1, value, path, seen =>
    match value with
    | .str s =>
      if isSensitiveValue s then some (.error (sensitiveDataError path)) else some (.ok seen)
    | .ref object =>
      if object ∈ seen then some (.ok seen)
      else
        match graph object with
        | .array elements =>
          assertEach (assertNoCredentialsIn graph depth) path 0 elements (insert object seen)
        | .object entries =>
          assertEntries (assertNoCredentialsIn graph depth) path entries (insert object seen)
    | .null | .undefined | .bool _ | .other => some (.ok seen)

/-! ## Contents, reachability, credentials -/

/-- The values an object holds. -/
def ObjectNode.contents : ObjectNode ν → List (GraphValue ν)
  | .array elements => elements.filterMap id
  | .object entries => entries.map Prod.snd

/-- A sensitive key that stands over a value. -/
def ObjectNode.namesCredential : ObjectNode ν → Prop
  | .array _ => False
  | .object entries =>
    ∃ e ∈ entries, isSensitiveKey e.1 = true ∧ e.2.isEmptyEntry = false

/-- The values reachable from a value, itself included. -/
inductive ReachesValue (graph : ObjectGraph ν) : GraphValue ν → GraphValue ν → Prop where
  | self (value : GraphValue ν) : ReachesValue graph value value
  | through {object : ν} {entry value : GraphValue ν} (hentry : entry ∈ (graph object).contents)
      (hrest : ReachesValue graph entry value) : ReachesValue graph (.ref object) value

/-- **A credential in a graph**: a reachable string of a sensitive shape, or a reachable
object with a sensitive key over a value. -/
def HoldsCredential (graph : ObjectGraph ν) (root : GraphValue ν) : Prop :=
  (∃ s, ReachesValue graph root (.str s) ∧ isSensitiveValue s = true) ∨
    ∃ object, ReachesValue graph root (.ref object) ∧ (graph object).namesCredential

variable {graph : ObjectGraph ν}

theorem HoldsCredential.through {object : ν} {entry : GraphValue ν}
    (hentry : entry ∈ (graph object).contents) (h : HoldsCredential graph entry) :
    HoldsCredential graph (.ref object) := by
  rcases h with ⟨s, hreach, hvalue⟩ | ⟨o, hreach, hkey⟩
  · exact .inl ⟨s, .through hentry hreach, hvalue⟩
  · exact .inr ⟨o, .through hentry hreach, hkey⟩

/-! ## What is thrown is there -/

/-- A call that throws met a credential in what it was handed. -/
def ThrowsOnly (graph : ObjectGraph ν)
    (assert : GraphValue ν → String → Finset ν → Walk ν) : Prop :=
  ∀ value path seen error, assert value path seen = some (.error error) →
    HoldsCredential graph value ∧ ∃ p, error = sensitiveDataError p

theorem assertEach_throws {assert : GraphValue ν → String → Finset ν → Walk ν}
    (h : ThrowsOnly graph assert) {path : String} {index : Nat}
    {elements : List (Option (GraphValue ν))} {seen : Finset ν} {error : JsError}
    (hrun : assertEach assert path index elements seen = some (.error error)) :
    (∃ entry ∈ elements.filterMap id, HoldsCredential graph entry) ∧
      ∃ p, error = sensitiveDataError p := by
  induction elements generalizing index seen with
  | nil => cases hrun
  | cons element rest ih =>
    cases element with
    | none =>
      obtain ⟨⟨entry, hentry, hholds⟩, hpath⟩ := ih hrun
      exact ⟨⟨entry, by simpa using hentry, hholds⟩, hpath⟩
    | some entry =>
      simp only [assertEach] at hrun
      split at hrun
      · obtain ⟨⟨entry', hentry, hholds⟩, hpath⟩ := ih hrun
        constructor
        · exact ⟨entry', List.mem_cons_of_mem _ hentry, hholds⟩
        · exact hpath
      · obtain ⟨hholds, hpath⟩ := h entry _ seen error hrun
        constructor
        · exact ⟨entry, List.mem_cons_self, hholds⟩
        · exact hpath

theorem assertEntries_throws {assert : GraphValue ν → String → Finset ν → Walk ν}
    (h : ThrowsOnly graph assert) {path : String} {entries : List (String × GraphValue ν)}
    {seen : Finset ν} {error : JsError}
    (hrun : assertEntries assert path entries seen = some (.error error)) :
    ((∃ e ∈ entries, isSensitiveKey e.1 = true ∧ e.2.isEmptyEntry = false) ∨
        ∃ entry ∈ entries.map Prod.snd, HoldsCredential graph entry) ∧
      ∃ p, error = sensitiveDataError p := by
  induction entries generalizing seen with
  | nil => cases hrun
  | cons e rest ih =>
    simp only [assertEntries] at hrun
    split at hrun
    · next hkey =>
      cases hrun
      simp only [Bool.and_eq_true, Bool.not_eq_true'] at hkey
      exact ⟨.inl ⟨e, List.mem_cons_self, hkey⟩, _, rfl⟩
    · split at hrun
      · obtain ⟨hfound, hpath⟩ := ih hrun
        constructor
        · rcases hfound with ⟨e', he', hkey⟩ | ⟨entry, hentry, hholds⟩
          · exact .inl ⟨e', List.mem_cons_of_mem _ he', hkey⟩
          · exact .inr ⟨entry, List.mem_cons_of_mem _ hentry, hholds⟩
        · exact hpath
      · obtain ⟨hholds, hpath⟩ := h e.2 _ seen error hrun
        constructor
        · exact .inr ⟨e.2, List.mem_cons_self, hholds⟩
        · exact hpath

/-- The walk throws only where there is a credential. -/
theorem throwsOnly [DecidableEq ν] (graph : ObjectGraph ν) (depth : Nat) :
    ThrowsOnly graph (assertNoCredentialsIn graph depth) := by
  induction depth with
  | zero =>
    intro value path seen error hrun
    cases hrun
  | succ depth ih =>
    intro value path seen error hrun
    cases value with
    | str s =>
      simp only [assertNoCredentialsIn] at hrun
      split at hrun
      · next hvalue =>
        cases hrun
        exact ⟨.inl ⟨s, .self _, hvalue⟩, path, rfl⟩
      · cases hrun
    | ref object =>
      simp only [assertNoCredentialsIn] at hrun
      split at hrun
      · cases hrun
      · split at hrun
        · next elements hnode =>
          obtain ⟨⟨entry, hentry, hholds⟩, hpath⟩ := assertEach_throws ih hrun
          have hcontents : entry ∈ (graph object).contents := by
            rw [hnode]
            exact hentry
          exact ⟨hholds.through hcontents, hpath⟩
        · next entries hnode =>
          obtain ⟨hkey | ⟨entry, hentry, hholds⟩, hpath⟩ := assertEntries_throws ih hrun
          · have hnamed : (graph object).namesCredential := by
              rw [hnode]
              exact hkey
            exact ⟨.inr ⟨object, .self _, hnamed⟩, hpath⟩
          · have hcontents : entry ∈ (graph object).contents := by
              rw [hnode]
              exact hentry
            exact ⟨hholds.through hcontents, hpath⟩
    | null | undefined | bool | other => cases hrun

/-! ## What has been walked is clean -/

/-- A value that was looked at: a string of no sensitive shape, an object that was seen. -/
def LookedAt (seen : Finset ν) : GraphValue ν → Prop
  | .str s => isSensitiveValue s = false
  | .ref object => object ∈ seen
  | .null | .undefined | .bool _ | .other => True

/-- An object all of whose contents were looked at, with no sensitive key over a value. -/
def FullyWalked (graph : ObjectGraph ν) (seen : Finset ν) (object : ν) : Prop :=
  (∀ entry ∈ (graph object).contents, LookedAt seen entry) ∧ ¬ (graph object).namesCredential

theorem LookedAt.mono {seen seen' : Finset ν} (hsub : seen ⊆ seen') {value : GraphValue ν}
    (h : LookedAt seen value) : LookedAt seen' value := by
  cases value with
  | ref object => exact hsub h
  | str s => exact h
  | null | undefined | bool | other => trivial

theorem FullyWalked.mono {seen seen' : Finset ν} (hsub : seen ⊆ seen') {object : ν}
    (h : FullyWalked graph seen object) : FullyWalked graph seen' object :=
  ⟨fun entry hentry => (h.1 entry hentry).mono hsub, h.2⟩

/-- **What a call leaves behind.** It has looked at what it was handed, forgotten nothing, and
walked every object it has newly seen. -/
structure WalksOn (graph : ObjectGraph ν) (seen seen' : Finset ν) : Prop where
  keeps : seen ⊆ seen'
  walked : ∀ object ∈ seen', object ∈ seen ∨ FullyWalked graph seen' object

theorem WalksOn.refl (seen : Finset ν) : WalksOn graph seen seen :=
  ⟨Finset.Subset.refl _, fun _ h => .inl h⟩

theorem WalksOn.trans {a b c : Finset ν} (h : WalksOn graph a b) (h' : WalksOn graph b c) :
    WalksOn graph a c := by
  constructor
  · exact h.keeps.trans h'.keeps
  · intro object hobject
    rcases h'.walked object hobject with hb | hc
    · rcases h.walked object hb with ha | hwalked
      · exact .inl ha
      · exact .inr (hwalked.mono h'.keeps)
    · exact .inr hc

/-- What a call that ends well has done. -/
def EndsWalked (graph : ObjectGraph ν)
    (assert : GraphValue ν → String → Finset ν → Walk ν) : Prop :=
  ∀ value path seen seen', assert value path seen = some (.ok seen') →
    WalksOn graph seen seen' ∧ LookedAt seen' value

theorem assertEach_walks {assert : GraphValue ν → String → Finset ν → Walk ν}
    (h : EndsWalked graph assert) {path : String} {index : Nat}
    {elements : List (Option (GraphValue ν))} {seen seen' : Finset ν}
    (hrun : assertEach assert path index elements seen = some (.ok seen')) :
    WalksOn graph seen seen' ∧ ∀ entry ∈ elements.filterMap id, LookedAt seen' entry := by
  induction elements generalizing index seen with
  | nil =>
    cases hrun
    constructor
    · exact .refl _
    · intro entry hentry
      cases hentry
  | cons element rest ih =>
    cases element with
    | none =>
      obtain ⟨hwalks, hlooked⟩ := ih hrun
      exact ⟨hwalks, by simpa using hlooked⟩
    | some entry =>
      simp only [assertEach] at hrun
      split at hrun
      · next seen₁ hentry =>
        obtain ⟨hfirst, hlooked⟩ := h entry _ seen seen₁ hentry
        obtain ⟨hrest, hall⟩ := ih hrun
        constructor
        · exact hfirst.trans hrest
        · intro x hx
          rcases List.mem_cons.mp hx with heq | htail
          · rw [heq]
            exact hlooked.mono hrest.keeps
          · exact hall x htail
      · next hfailed =>
        exact absurd hrun (hfailed seen')

theorem assertEntries_walks {assert : GraphValue ν → String → Finset ν → Walk ν}
    (h : EndsWalked graph assert) {path : String} {entries : List (String × GraphValue ν)}
    {seen seen' : Finset ν} (hrun : assertEntries assert path entries seen = some (.ok seen')) :
    WalksOn graph seen seen' ∧ (∀ entry ∈ entries.map Prod.snd, LookedAt seen' entry) ∧
      ∀ e ∈ entries, isSensitiveKey e.1 = true → e.2.isEmptyEntry = true := by
  induction entries generalizing seen with
  | nil =>
    cases hrun
    constructor
    · exact .refl _
    · simp
  | cons e rest ih =>
    simp only [assertEntries] at hrun
    split at hrun
    · cases hrun
    · next hkey =>
      split at hrun
      · next seen₁ hentry =>
        obtain ⟨hfirst, hlooked⟩ := h e.2 _ seen seen₁ hentry
        obtain ⟨hrest, hall, hkeys⟩ := ih hrun
        constructor
        · exact hfirst.trans hrest
        constructor
        · intro x hx
          rcases List.mem_cons.mp hx with heq | htail
          · rw [heq]
            exact hlooked.mono hrest.keeps
          · exact hall x htail
        · intro x hx hsensitive
          rcases List.mem_cons.mp hx with heq | htail
          · rw [heq] at hsensitive ⊢
            simpa [hsensitive] using hkey
          · exact hkeys x htail hsensitive
      · next hfailed =>
        exact absurd hrun (hfailed seen')

/-- A walk that ends well, by induction on the depth: an object is marked before its
contents are looked at, so what it holds may refer back to it. -/
theorem endsWalked [DecidableEq ν] (graph : ObjectGraph ν) (depth : Nat) :
    EndsWalked graph (assertNoCredentialsIn graph depth) := by
  induction depth with
  | zero =>
    intro value path seen seen' hrun
    cases hrun
  | succ depth ih =>
    intro value path seen seen' hrun
    cases value with
    | str s =>
      simp only [assertNoCredentialsIn] at hrun
      split at hrun
      · cases hrun
      · next hvalue =>
        cases hrun
        exact ⟨.refl _, by simpa [LookedAt] using hvalue⟩
    | ref object =>
      simp only [assertNoCredentialsIn] at hrun
      split at hrun
      · next hseen =>
        cases hrun
        exact ⟨.refl _, hseen⟩
      · -- the object itself is walked once its contents are
        have hentered : WalksOn graph (insert object seen) seen' → FullyWalked graph seen' object →
            WalksOn graph seen seen' ∧ object ∈ seen' := by
          intro hwalks hwalked
          constructor
          · constructor
            · exact (Finset.subset_insert _ _).trans hwalks.keeps
            · intro o ho
              rcases hwalks.walked o ho with hbefore | hnew
              · rcases Finset.mem_insert.mp hbefore with heq | hold
                · rw [heq]
                  exact .inr hwalked
                · exact .inl hold
              · exact .inr hnew
          · exact hwalks.keeps (Finset.mem_insert_self _ _)
        split at hrun
        · next elements hnode =>
          obtain ⟨hwalks, hlooked⟩ := assertEach_walks ih hrun
          apply hentered hwalks
          constructor
          · rw [hnode]
            exact hlooked
          · rw [hnode]
            exact id
        · next entries hnode =>
          obtain ⟨hwalks, hlooked, hkeys⟩ := assertEntries_walks ih hrun
          apply hentered hwalks
          constructor
          · rw [hnode]
            exact hlooked
          · rw [hnode]
            rintro ⟨e, he, hsensitive, hvalue⟩
            rw [hkeys e he hsensitive] at hvalue
            cases hvalue
    | null | undefined | bool | other =>
      cases hrun
      exact ⟨.refl _, trivial⟩

/-- If everything seen has been walked, everything reachable has been looked at. -/
theorem lookedAt_reachable {seen : Finset ν}
    (hwalked : ∀ object ∈ seen, FullyWalked graph seen object) {root value : GraphValue ν}
    (hroot : LookedAt seen root) (hreach : ReachesValue graph root value) :
    LookedAt seen value := by
  induction hreach with
  | self => exact hroot
  | through hentry _ ih => exact ih ((hwalked _ hroot).1 _ hentry)

/-- A walk from nothing seen that ends well leaves no credential unseen. -/
theorem clean_of_ok [DecidableEq ν] {depth : Nat} {root : GraphValue ν} {path : String}
    {seen : Finset ν} (hrun : assertNoCredentialsIn graph depth root path ∅ = some (.ok seen)) :
    ¬ HoldsCredential graph root := by
  obtain ⟨hwalks, hroot⟩ := endsWalked graph depth root path ∅ seen hrun
  have hall : ∀ object ∈ seen, FullyWalked graph seen object := by
    intro object hobject
    rcases hwalks.walked object hobject with hempty | hwalked
    · exact absurd hempty (Finset.notMem_empty _)
    · exact hwalked
  rintro (⟨s, hreach, hvalue⟩ | ⟨object, hreach, hkey⟩)
  · have hlooked : isSensitiveValue s = false := lookedAt_reachable hall hroot hreach
    rw [hlooked] at hvalue
    cases hvalue
  · exact (hall object (lookedAt_reachable hall hroot hreach)).2 hkey

/-! ## The walk ends -/

/-- All objects reachable from a value are among the given ones. -/
def Within (graph : ObjectGraph ν) (objects : Finset ν) (value : GraphValue ν) : Prop :=
  ∀ object, ReachesValue graph value (.ref object) → object ∈ objects

/-- A call ends where fewer objects than `bound` are unseen. -/
def EndsBelow [DecidableEq ν] (graph : ObjectGraph ν) (objects : Finset ν) (bound : Nat)
    (assert : GraphValue ν → String → Finset ν → Walk ν) : Prop :=
  ∀ value path seen, Within graph objects value → (objects \ seen).card < bound →
    assert value path seen ≠ none

theorem assertEach_ends [DecidableEq ν] {objects : Finset ν} {bound : Nat}
    {assert : GraphValue ν → String → Finset ν → Walk ν} (h : EndsBelow graph objects bound assert)
    (hwalked : EndsWalked graph assert) {path : String} {index : Nat}
    {elements : List (Option (GraphValue ν))} {seen : Finset ν}
    (hwithin : ∀ entry ∈ elements.filterMap id, Within graph objects entry)
    (hbound : (objects \ seen).card < bound) :
    assertEach assert path index elements seen ≠ none := by
  induction elements generalizing index seen with
  | nil => simp [assertEach]
  | cons element rest ih =>
    cases element with
    | none => exact ih (by simpa using hwithin) hbound
    | some entry =>
      simp only [assertEach]
      split
      · next seen' hentry =>
        have hkeeps := (hwalked entry _ seen seen' hentry).1.keeps
        have hcard := Finset.card_le_card (Finset.sdiff_subset_sdiff (le_refl objects) hkeeps)
        apply ih
        · intro x hx
          exact hwithin x (List.mem_cons_of_mem _ hx)
        · exact Nat.lt_of_le_of_lt hcard hbound
      · exact h entry _ seen (hwithin entry List.mem_cons_self) hbound

theorem assertEntries_ends [DecidableEq ν] {objects : Finset ν} {bound : Nat}
    {assert : GraphValue ν → String → Finset ν → Walk ν} (h : EndsBelow graph objects bound assert)
    (hwalked : EndsWalked graph assert) {path : String} {entries : List (String × GraphValue ν)}
    {seen : Finset ν} (hwithin : ∀ entry ∈ entries.map Prod.snd, Within graph objects entry)
    (hbound : (objects \ seen).card < bound) : assertEntries assert path entries seen ≠ none := by
  induction entries generalizing seen with
  | nil => simp [assertEntries]
  | cons e rest ih =>
    simp only [assertEntries]
    split
    · simp
    · split
      · next seen' hentry =>
        have hkeeps := (hwalked e.2 _ seen seen' hentry).1.keeps
        have hcard := Finset.card_le_card (Finset.sdiff_subset_sdiff (le_refl objects) hkeeps)
        apply ih
        · intro x hx
          exact hwithin x (List.mem_cons_of_mem _ hx)
        · exact Nat.lt_of_le_of_lt hcard hbound
      · exact h e.2 _ seen (hwithin e.2 List.mem_cons_self) hbound

/-- The depth needed is the number of unseen objects: each object entered is one less. -/
theorem endsBelow [DecidableEq ν] (graph : ObjectGraph ν) (objects : Finset ν) (depth : Nat) :
    EndsBelow graph objects depth (assertNoCredentialsIn graph depth) := by
  induction depth with
  | zero =>
    intro value path seen _ hbound
    exact absurd hbound (Nat.not_lt_zero _)
  | succ depth ih =>
    intro value path seen hwithin hbound
    cases value with
    | str s =>
      simp only [assertNoCredentialsIn]
      split <;> simp
    | ref object =>
      simp only [assertNoCredentialsIn]
      split
      · simp
      · next hunseen =>
        have hmem : object ∈ objects \ seen :=
          Finset.mem_sdiff.mpr ⟨hwithin object (.self _), hunseen⟩
        have hsub : objects \ insert object seen ⊂ objects \ seen := by
          rw [Finset.sdiff_insert]
          exact Finset.erase_ssubset hmem
        have hcard : (objects \ insert object seen).card < depth :=
          Nat.lt_of_lt_of_le (Finset.card_lt_card hsub) (Nat.le_of_lt_succ hbound)
        have hcontents : ∀ entry ∈ (graph object).contents, Within graph objects entry :=
          fun entry hentry o hreach => hwithin o (.through hentry hreach)
        split
        · next elements hnode =>
          rw [hnode] at hcontents
          exact assertEach_ends ih (endsWalked graph depth) hcontents hcard
        · next entries hnode =>
          rw [hnode] at hcontents
          exact assertEntries_ends ih (endsWalked graph depth) hcontents hcard
    | null | undefined | bool | other => simp [assertNoCredentialsIn]

/-- A call that comes to something comes to the same with more depth. -/
def Deeper (assert assert' : GraphValue ν → String → Finset ν → Walk ν) : Prop :=
  ∀ value path seen result, assert value path seen = some result →
    assert' value path seen = some result

theorem assertEach_deeper {assert assert' : GraphValue ν → String → Finset ν → Walk ν}
    (h : Deeper assert assert') {path : String} {index : Nat}
    {elements : List (Option (GraphValue ν))} {seen : Finset ν}
    {result : Except JsError (Finset ν)}
    (hrun : assertEach assert path index elements seen = some result) :
    assertEach assert' path index elements seen = some result := by
  induction elements generalizing index seen with
  | nil => exact hrun
  | cons element rest ih =>
    cases element with
    | none => exact ih hrun
    | some entry =>
      simp only [assertEach] at hrun ⊢
      cases hentry : assert entry (path ++ "[" ++ toString index ++ "]") seen with
      | none =>
        rw [hentry] at hrun
        cases hrun
      | some first =>
        rw [hentry] at hrun
        rw [h _ _ _ _ hentry]
        cases first with
        | error error => exact hrun
        | ok seen' => exact ih hrun

theorem assertEntries_deeper {assert assert' : GraphValue ν → String → Finset ν → Walk ν}
    (h : Deeper assert assert') {path : String} {entries : List (String × GraphValue ν)}
    {seen : Finset ν} {result : Except JsError (Finset ν)}
    (hrun : assertEntries assert path entries seen = some result) :
    assertEntries assert' path entries seen = some result := by
  induction entries generalizing seen with
  | nil => exact hrun
  | cons e rest ih =>
    simp only [assertEntries] at hrun ⊢
    split
    · next hkey =>
      rw [if_pos hkey] at hrun
      exact hrun
    · next hkey =>
      rw [if_neg hkey] at hrun
      cases hentry : assert e.2 (path ++ "." ++ e.1) seen with
      | none =>
        rw [hentry] at hrun
        cases hrun
      | some first =>
        rw [hentry] at hrun
        rw [h _ _ _ _ hentry]
        cases first with
        | error error => exact hrun
        | ok seen' => exact ih hrun

theorem deeper_succ [DecidableEq ν] (graph : ObjectGraph ν) (depth : Nat) :
    Deeper (assertNoCredentialsIn graph depth) (assertNoCredentialsIn graph (depth + 1)) := by
  induction depth with
  | zero =>
    intro value path seen result hrun
    cases hrun
  | succ depth ih =>
    intro value path seen result hrun
    cases value with
    | ref object =>
      rw [assertNoCredentialsIn] at hrun ⊢
      split
      · next hseen =>
        rw [if_pos hseen] at hrun
        exact hrun
      · next hunseen =>
        rw [if_neg hunseen] at hrun
        cases hnode : graph object with
        | array elements =>
          rw [hnode] at hrun
          exact assertEach_deeper ih hrun
        | object entries =>
          rw [hnode] at hrun
          exact assertEntries_deeper ih hrun
    | str | null | undefined | bool | other => exact hrun

theorem deeper [DecidableEq ν] {graph : ObjectGraph ν} {depth depth' : Nat} (hle : depth ≤ depth') :
    Deeper (assertNoCredentialsIn graph depth) (assertNoCredentialsIn graph depth') := by
  induction hle with
  | refl => exact fun _ _ _ _ hrun => hrun
  | step _ ih => exact fun _ _ _ _ hrun => deeper_succ graph _ _ _ _ _ (ih _ _ _ _ hrun)

/-! ## The verdict -/

/-- The call on a root ends, with this result. -/
def EndsWith [DecidableEq ν] (graph : ObjectGraph ν) (root : GraphValue ν) (path : String)
    (result : Except JsError (Finset ν)) : Prop :=
  ∃ bound, ∀ depth, bound ≤ depth → assertNoCredentialsIn graph depth root path ∅ = some result

/-- The same node with its keys or elements in another order. -/
inductive ObjectNode.Reordered : ObjectNode ν → ObjectNode ν → Prop where
  | array {elements elements' : List (Option (GraphValue ν))} (h : elements.Perm elements') :
    Reordered (.array elements) (.array elements')
  | object {entries entries' : List (String × GraphValue ν)} (h : entries.Perm entries') :
    Reordered (.object entries) (.object entries')

theorem ObjectNode.Reordered.contents_perm {node node' : ObjectNode ν} (h : node.Reordered node') :
    node.contents.Perm node'.contents := by
  cases h with
  | array h => exact h.filterMap id
  | object h => exact h.map Prod.snd

theorem ObjectNode.Reordered.namesCredential_iff {node node' : ObjectNode ν}
    (h : node.Reordered node') : node.namesCredential ↔ node'.namesCredential := by
  cases h with
  | array => exact Iff.rfl
  | object h =>
    simp only [ObjectNode.namesCredential]
    constructor
    · rintro ⟨e, he, hkey⟩
      exact ⟨e, h.mem_iff.mp he, hkey⟩
    · rintro ⟨e, he, hkey⟩
      exact ⟨e, h.mem_iff.mpr he, hkey⟩

theorem reaches_reordered {graph graph' : ObjectGraph ν}
    (h : ∀ object, (graph object).Reordered (graph' object)) {root value : GraphValue ν} :
    ReachesValue graph root value ↔ ReachesValue graph' root value := by
  constructor
  · intro hreach
    induction hreach with
    | self => exact .self _
    | through hentry _ ih => exact .through ((h _).contents_perm.mem_iff.mp hentry) ih
  · intro hreach
    induction hreach with
    | self => exact .self _
    | through hentry _ ih => exact .through ((h _).contents_perm.mem_iff.mpr hentry) ih

theorem holdsCredential_reordered {graph graph' : ObjectGraph ν}
    (h : ∀ object, (graph object).Reordered (graph' object)) {root : GraphValue ν} :
    HoldsCredential graph root ↔ HoldsCredential graph' root := by
  simp only [HoldsCredential, reaches_reordered h, (h _).namesCredential_iff]

/-- A call on a finite graph ends, and throws exactly on a credential. -/
theorem ends_of_finite [DecidableEq ν] {root : GraphValue ν} (path : String)
    (hfinite : {object | ReachesValue graph root (.ref object)}.Finite) :
    ∃ result, EndsWith graph root path result ∧ (result.isOk = false ↔ HoldsCredential graph root) ∧
      ∀ error, result = .error error → ∃ p, error = sensitiveDataError p := by
  have hwithin : Within graph hfinite.toFinset root :=
    fun object hreach => hfinite.mem_toFinset.mpr hreach
  have hends := endsBelow graph hfinite.toFinset (hfinite.toFinset.card + 1) root path ∅ hwithin
    (by simp)
  obtain ⟨result, hrun⟩ := Option.ne_none_iff_exists'.mp hends
  refine ⟨result, ⟨_, fun depth hdepth => deeper hdepth _ _ _ _ hrun⟩, ?_⟩
  cases result with
  | ok seen =>
    constructor
    · simp [Except.isOk, Except.toBool, clean_of_ok hrun]
    · intro error herror
      cases herror
  | error error =>
    obtain ⟨hholds, hpath⟩ := throwsOnly graph _ root path ∅ error hrun
    constructor
    · simp [Except.isOk, Except.toBool, hholds]
    · intro error' herror
      cases herror
      exact hpath

/-- **The verdict on an object graph.** On every finite graph, shared and cyclic references
included, `assertNoCredentials` ends; it throws exactly if a reachable string has a
sensitive shape or a reachable object has a sensitive key over a value; and the order of
keys and elements does not matter. -/
theorem assertNoCredentials_verdict [DecidableEq ν] (graph : ObjectGraph ν) (root : GraphValue ν)
    (path : String) (hfinite : {object | ReachesValue graph root (.ref object)}.Finite) :
    ∃ result, EndsWith graph root path result ∧
      (result.isOk = false ↔ HoldsCredential graph root) ∧
      (∀ error, result = .error error → ∃ p, error = sensitiveDataError p) ∧
      ∀ graph', (∀ object, (graph object).Reordered (graph' object)) →
        ∃ result', EndsWith graph' root path result' ∧ result'.isOk = result.isOk := by
  obtain ⟨result, hends, hverdict, herror⟩ := ends_of_finite path hfinite
  refine ⟨result, hends, hverdict, herror, ?_⟩
  intro graph' hreordered
  have hfinite' : {object | ReachesValue graph' root (.ref object)}.Finite := by
    simpa only [← reaches_reordered hreordered] using hfinite
  obtain ⟨result', hends', hverdict', -⟩ := ends_of_finite path hfinite'
  refine ⟨result', hends', ?_⟩
  have hsame : result'.isOk = false ↔ result.isOk = false := by
    rw [hverdict, hverdict', holdsCredential_reordered hreordered]
  cases hok : result.isOk with
  | false => exact hsame.mpr hok
  | true =>
    cases hok' : result'.isOk with
    | true => rfl
    | false =>
      rw [hsame.mp hok'] at hok
      cases hok

/-- Two objects that refer to each other, one of them with a token. -/
def mutualGraph : ObjectGraph Bool
  | true => .object [("self", .ref true), ("other", .ref false)]
  | false => .array [none, some (.ref true), some (.str "use Bearer abcdefgh12")]

theorem assertNoCredentials_verdict_mutual :
    ∃ result, EndsWith mutualGraph (.ref true) "data" result ∧
      (result.isOk = false ↔ HoldsCredential mutualGraph (.ref true)) ∧
      (∀ error, result = .error error → ∃ p, error = sensitiveDataError p) ∧
      ∀ graph', (∀ object, (mutualGraph object).Reordered (graph' object)) →
        ∃ result', EndsWith graph' (.ref true) "data" result' ∧ result'.isOk = result.isOk :=
  assertNoCredentials_verdict mutualGraph (.ref true) "data" (Set.toFinite _)

end AppPort
