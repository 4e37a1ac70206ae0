import AppPort.ApiKeys.Restrictions

/-!
# What `normalizeRestrictions` keeps

The ceiling that is stored against the one a caller wrote: read literally, each rule
requires every field and every attribute it lists. Normalizing a rule copies it part by
part; what the copy loses is an attribute of the name `__proto__`, which an assignment
does not create, and with it what that attribute required.
-/

namespace AppPort

/-! ## Values -/

namespace JsValue

mutual

/-- No object has two properties of one name. -/
def isWellFormed : JsValue → Bool
  | .arr xs => elementsWellFormed xs
  | .obj fields => decide (fields.map Prod.fst).Nodup && fieldsWellFormed fields
  | .undefined | .null | .bool _ | .num _ | .str _ => true

def elementsWellFormed : List JsValue → Bool
  | [] => true
  | x :: xs => x.isWellFormed && elementsWellFormed xs

def fieldsWellFormed : List (String × JsValue) → Bool
  | [] => true
  | (_, value) :: rest => value.isWellFormed && fieldsWellFormed rest

end

theorem wellFormed_of_mem_elements {xs : List JsValue} (h : elementsWellFormed xs = true)
    {x : JsValue} (hx : x ∈ xs) : x.isWellFormed = true := by
  induction xs with
  | nil => cases hx
  | cons y ys ih =>
    obtain ⟨hy, hys⟩ := Bool.and_eq_true_iff.mp h
    rcases List.mem_cons.mp hx with rfl | hx
    · exact hy
    · exact ih hys hx

theorem wellFormed_of_lookup {fields : List (String × JsValue)} (h : fieldsWellFormed fields = true)
    {name : String} {value : JsValue} (hv : fields.lookup name = some value) :
    value.isWellFormed = true := by
  induction fields with
  | nil => cases hv
  | cons e rest ih =>
    obtain ⟨he, hrest⟩ := Bool.and_eq_true_iff.mp h
    rw [List.lookup_cons] at hv
    cases hname : name == e.1 with
    | true =>
      rw [hname] at hv
      obtain rfl := Option.some.inj hv
      exact he
    | false =>
      rw [hname] at hv
      exact ih hrest hv

theorem isWellFormed_prop {v : JsValue} (h : v.isWellFormed = true) (name : String) :
    (v.prop name).isWellFormed = true := by
  cases v with
  | obj fields =>
    obtain ⟨-, hfields⟩ := Bool.and_eq_true_iff.mp h
    show ((fields.lookup name).getD .undefined).isWellFormed = true
    cases hv : fields.lookup name with
    | none => rfl
    | some value => exact wellFormed_of_lookup hfields hv
  | undefined | null | bool | num | str | arr => rfl

end JsValue

namespace ApiKeyRestrictions

/-! ## A ceiling as it is written -/

/-- The attributes a rule lists. -/
def listedAttributes (rule : JsValue) : List (String × JsValue) :=
  match rule.prop "attributes" with
  | .obj entries => entries
  | _ => []

/-- The rules a ceiling lists. -/
def listedRules (value : JsValue) : List JsValue :=
  match value.prop "resources" with
  | .arr rules => rules
  | _ => []

/-- The capabilities a ceiling lists. -/
def listedCapabilities (value : JsValue) : List JsValue :=
  match value.prop "capabilities" with
  | .arr names => names
  | _ => []

/-- A field that is written is met by the resource's. -/
def writtenField (value : JsValue) (actual : Option String) : Bool :=
  match value with
  | .undefined => true
  | value => actual.any value.isText

/-- A rule, read literally, matches a resource: so do all the parts it lists. -/
def writtenMatches (rule : JsValue) (resource : ServiceResource) : Bool :=
  writtenField (rule.prop "type") (some resource.type) && writtenField (rule.prop "id") resource.id &&
    (listedAttributes rule).all fun entry => (resource.attribute entry.1).any entry.2.isText

/-- A ceiling, read literally, permits an operation. -/
def writtenPermits (value : JsValue) (capability : String) (resource : ServiceResource) : Bool :=
  (listedCapabilities value).any (fun name => name.isText capability) &&
    match value.prop "resources" with
    | .undefined => true
    | _ => (listedRules value).any fun rule => writtenMatches rule resource

/-- The rule is written so: its texts as a record. -/
def asWritten (rule : JsValue) : ApiKeyResourceRule where
  type := (rule.prop "type").text?
  id := (rule.prop "id").text?
  attributes := some (((listedAttributes rule).filterMap fun entry =>
    entry.2.text?.map fun text => (entry.1, text)).foldl
      (fun attributes entry => attributes.set entry.1 entry.2) .empty)

end ApiKeyRestrictions

/-- The object without a property. -/
def RuleAttributes.without (attributes : RuleAttributes) (key : String) : RuleAttributes :=
  ⟨attributes.entries.filter fun entry => entry.1 != key,
    attributes.distinct.sublist (List.filter_sublist.map _)⟩

/-- The rule without an attribute. -/
def ApiKeyResourceRule.without (rule : ApiKeyResourceRule) (key : String) : ApiKeyResourceRule :=
  { rule with attributes := rule.attributes.map fun attributes => attributes.without key }

/-- The rule constrains the resource. -/
def ApiKeyResourceRule.constrains (rule : ApiKeyResourceRule) : Bool :=
  rule.type.isSome || rule.id.isSome || !rule.attributeEntries.isEmpty

/-! ## A stored ceiling as a value -/

/-- A field that is there. -/
def textField (name : String) : Option String → List (String × JsValue)
  | some text => [(name, .str text)]
  | none => []

def RuleAttributes.toJs (attributes : RuleAttributes) : JsValue :=
  .obj (attributes.entries.map fun entry => (entry.1, .str entry.2))

def ApiKeyResourceRule.toJs (rule : ApiKeyResourceRule) : JsValue :=
  .obj (textField "type" rule.type ++ (textField "id" rule.id ++
    match rule.attributes with
    | some attributes => [("attributes", attributes.toJs)]
    | none => []))

def ApiKeyRestrictions.toJs (restrictions : ApiKeyRestrictions) : JsValue :=
  .obj (("capabilities", .arr (restrictions.capabilities.map JsValue.str)) ::
    match restrictions.resources with
    | some rules => [("resources", .arr (rules.map ApiKeyResourceRule.toJs))]
    | none => [])

namespace ApiKeyRestrictions

/-! ## What is accepted, part by part -/

theorem bind_of_ok {ε α β : Type} {x : Except ε α} {f : α → Except ε β} {a : α} {b : β}
    (hx : x = .ok a) (hf : f a = .ok b) : x >>= f = .ok b := by
  rw [hx]
  exact hf

/-- A text that `text` accepts. -/
def isText (s : String) : Bool := !isBlank s && decide (jsLength s ≤ MAX_TEXT)

theorem requiredText_eq_ok {value : JsValue} {property s : String} :
    requiredText value property = .ok s ↔ value = .str s ∧ isText s = true := by
  cases value with
  | str text =>
    simp only [requiredText, isText, Bool.and_eq_true, decide_eq_true_eq, JsValue.str.injEq]
    split
    · next h =>
      simp only [Bool.or_eq_true, decide_eq_true_eq] at h
      constructor
      · intro h'
        cases h'
      · rintro ⟨rfl, hblank, hlen⟩
        rcases h with h | h
        · rw [h] at hblank
          cases hblank
        · omega
    · next h =>
      simp only [Bool.or_eq_true, decide_eq_true_eq, not_or, Bool.not_eq_true, Nat.not_lt] at h
      constructor
      · intro h'
        obtain rfl := Except.ok.inj h'
        simp [h.1, h.2]
      · rintro ⟨rfl, -, -⟩
        rfl
  | undefined | null | bool | num | arr | obj =>
    constructor
    · intro h
      cases h
    · rintro ⟨h, -⟩
      cases h

theorem normalizeType_eq_ok {at_ : String} {value : JsValue} {type : Option String} :
    normalizeType at_ value = .ok type ↔
      (value = .undefined ∧ type = none) ∨ ∃ s ∈ RESOURCE_TYPES, value = .str s ∧ type = some s := by
  by_cases hvalue : value = .undefined
  · subst hvalue
    constructor
    · intro h
      exact .inl ⟨rfl, (Except.ok.inj h).symm⟩
    · rintro (⟨-, rfl⟩ | ⟨s, -, h, -⟩)
      · rfl
      · cases h
  · have hnamed : RESOURCE_TYPES.any value.isText = true ↔ ∃ s ∈ RESOURCE_TYPES, value = .str s := by
      simp only [List.any_eq_true, JsValue.isText_iff]
    have hunfold : normalizeType at_ value = if RESOURCE_TYPES.any value.isText then .ok value.text?
        else .error (invalid (at_ ++ ".type: \"" ++ value.toText ++
          "\" is not a resource type in the service manifest")) := by
      cases value with
      | undefined => exact absurd rfl hvalue
      | null | bool | num | str | arr | obj => rfl
    rw [hunfold]
    by_cases h : RESOURCE_TYPES.any value.isText = true
    · rw [if_pos h]
      obtain ⟨s, hs, rfl⟩ := hnamed.mp h
      constructor
      · intro h'
        exact .inr ⟨s, hs, rfl, (Except.ok.inj h').symm⟩
      · rintro (⟨h', -⟩ | ⟨s', -, h', rfl⟩)
        · cases h'
        · rw [h']
          rfl
    · rw [if_neg h]
      constructor
      · intro h'
        cases h'
      · rintro (⟨h', -⟩ | ⟨s', hs', h', -⟩)
        · exact absurd h' hvalue
        · exact absurd (hnamed.mpr ⟨s', hs', h'⟩) h

theorem normalizeId_eq_ok {at_ : String} {value : JsValue} {id : Option String} :
    normalizeId at_ value = .ok id ↔
      (value = .undefined ∧ id = none) ∨ ∃ s, isText s = true ∧ value = .str s ∧ id = some s := by
  by_cases hvalue : value = .undefined
  · subst hvalue
    constructor
    · intro h
      exact .inl ⟨rfl, (Except.ok.inj h).symm⟩
    · rintro (⟨-, rfl⟩ | ⟨s, -, h, -⟩)
      · rfl
      · cases h
  · have hunfold : normalizeId at_ value = (requiredText value (at_ ++ ".id")).map some := by
      cases value with
      | undefined => exact absurd rfl hvalue
      | null | bool | num | str | arr | obj => rfl
    rw [hunfold]
    constructor
    · intro h
      cases hr : requiredText value (at_ ++ ".id") with
      | error e =>
        rw [hr] at h
        cases h
      | ok s =>
        rw [hr] at h
        obtain ⟨rfl, hs⟩ := requiredText_eq_ok.mp hr
        exact .inr ⟨s, hs, rfl, (Except.ok.inj h).symm⟩
    · rintro (⟨h, -⟩ | ⟨s, hs, rfl, rfl⟩)
      · exact absurd h hvalue
      · rw [requiredText_eq_ok.mpr ⟨rfl, hs⟩]
        rfl

/-- An attribute as a property. -/
def textEntry (entry : String × String) : String × JsValue := (entry.1, .str entry.2)

theorem normalizeAttribute_eq_ok {at_ : String} {entry : String × JsValue}
    {pair : String × String} : normalizeAttribute at_ entry = .ok pair ↔
      entry = textEntry pair ∧ isText pair.1 = true ∧ isText pair.2 = true := by
  constructor
  · intro h
    obtain ⟨key, hkey, h⟩ := bind_eq_ok h
    obtain ⟨value, hvalue, h⟩ := bind_eq_ok h
    obtain rfl := Except.ok.inj h
    obtain ⟨hname, hkey⟩ := requiredText_eq_ok.mp hkey
    obtain ⟨htext, hvalue⟩ := requiredText_eq_ok.mp hvalue
    exact ⟨Prod.ext (JsValue.str.inj hname) htext, hkey, hvalue⟩
  · rintro ⟨rfl, hkey, hvalue⟩
    exact bind_of_ok (requiredText_eq_ok.mpr ⟨rfl, hkey⟩)
      (bind_of_ok (requiredText_eq_ok.mpr ⟨rfl, hvalue⟩) rfl)

/-- Elements that are each read back from what they were are read back together. -/
theorem mapM_eq_ok {ε α β : Type} {f : α → Except ε β} {g : β → α} {P : β → Prop}
    (hf : ∀ a b, f a = .ok b ↔ a = g b ∧ P b) {as : List α} {bs : List β} :
    as.mapM f = .ok bs ↔ as = bs.map g ∧ ∀ b ∈ bs, P b := by
  induction as generalizing bs with
  | nil =>
    constructor
    · intro h
      obtain rfl := Except.ok.inj h
      exact ⟨rfl, fun _ hb => (by cases hb)⟩
    · rintro ⟨h, -⟩
      rw [List.map_eq_nil_iff.mp h.symm]
      rfl
  | cons a rest ih =>
    rw [List.mapM_cons]
    constructor
    · intro h
      obtain ⟨b, hb, h⟩ := bind_eq_ok h
      obtain ⟨others, hothers, h⟩ := bind_eq_ok h
      obtain rfl := Except.ok.inj h
      obtain ⟨rfl, hP⟩ := (hf a b).mp hb
      obtain ⟨rfl, hall⟩ := ih.mp hothers
      exact ⟨rfl, List.forall_mem_cons.mpr ⟨hP, hall⟩⟩
    · rintro ⟨heq, hall⟩
      cases bs with
      | nil => cases heq
      | cons b others =>
        obtain ⟨rfl, rfl⟩ := List.cons.inj heq
        obtain ⟨hP, hothers⟩ := List.forall_mem_cons.mp hall
        exact bind_of_ok ((hf _ _).mpr ⟨rfl, hP⟩) (bind_of_ok (ih.mpr ⟨rfl, hothers⟩) rfl)

theorem normalizeAttribute_each {at_ : String} {entries : List (String × JsValue)}
    {pairs : List (String × String)} : entries.mapM (normalizeAttribute at_) = .ok pairs ↔
      entries = pairs.map textEntry ∧ ∀ e ∈ pairs, isText e.1 = true ∧ isText e.2 = true :=
  mapM_eq_ok fun _ _ => normalizeAttribute_eq_ok

theorem normalizeCapability_eq_ok {value : JsValue} {name : String} :
    normalizeCapability value = .ok name ↔ value = .str name ∧ name ∈ CAPABILITIES := by
  unfold normalizeCapability
  cases hfind : CAPABILITIES.find? value.isText with
  | some found =>
    have hvalue : value = .str found :=
      (JsValue.isText_iff _ _).mp (List.find?_some hfind)
    constructor
    · intro h
      obtain rfl := Except.ok.inj h
      exact ⟨hvalue, List.mem_of_find?_eq_some hfind⟩
    · rintro ⟨h, -⟩
      rw [JsValue.str.inj (hvalue.symm.trans h)]
  | none =>
    constructor
    · intro h
      cases h
    · rintro ⟨rfl, hname⟩
      have hnone := List.find?_eq_none.mp hfind name hname
      exact absurd ((JsValue.isText_iff _ _).mpr rfl) hnone

/-! ## Copying attributes -/

/-- Properties under new names are added in order. -/
theorem entries_of_sets {pairs : List (String × String)} (hp : (pairs.map Prod.fst).Nodup)
    (attributes : RuleAttributes) (hnew : ∀ e ∈ pairs, e.1 ∉ attributes.entries.map Prod.fst) :
    (pairs.foldl (fun attributes entry => attributes.set entry.1 entry.2) attributes).entries =
      attributes.entries ++ pairs := by
  induction pairs generalizing attributes with
  | nil => simp
  | cons e rest ih =>
    obtain ⟨hother, hrest⟩ := List.nodup_cons.mp hp
    obtain ⟨he, hrestnew⟩ := List.forall_mem_cons.mp hnew
    have hset : (attributes.set e.1 e.2).entries = attributes.entries ++ [e] :=
      setEntry_of_new he e.2
    rw [List.foldl_cons, ih hrest, hset, List.append_assoc]
    · rfl
    · intro e' he'
      rw [hset, List.map_append]
      intro hmem
      rcases List.mem_append.mp hmem with h | h
      · exact hrestnew e' he' h
      · simp only [List.map_cons, List.map_nil, List.mem_singleton] at h
        exact hother (h ▸ List.mem_map_of_mem he')

/-- Assigning is setting, of all but `__proto__`. -/
theorem foldl_assign (pairs : List (String × String)) (attributes : RuleAttributes) :
    pairs.foldl (fun attributes entry => attributes.assign entry.1 entry.2) attributes =
      (pairs.filter fun entry => entry.1 != "__proto__").foldl
        (fun attributes entry => attributes.set entry.1 entry.2) attributes := by
  induction pairs generalizing attributes with
  | nil => rfl
  | cons e rest ih =>
    rw [List.foldl_cons, ih]
    by_cases h : e.1 = "__proto__"
    · rw [List.filter_cons_of_neg (by simp [h]), RuleAttributes.assign, if_pos h]
    · rw [List.filter_cons_of_pos (by simp [h]), List.foldl_cons, RuleAttributes.assign, if_neg h]

theorem entries_of_assigns {pairs : List (String × String)} (hp : (pairs.map Prod.fst).Nodup) :
    (pairs.foldl (fun attributes entry => attributes.assign entry.1 entry.2)
      RuleAttributes.empty).entries =
      pairs.filter fun entry => entry.1 != "__proto__" := by
  rw [foldl_assign, entries_of_sets (hp.sublist (List.filter_sublist.map _))]
  · rfl
  · intro e _ h
    cases h

section copying

variable {localeCompare : String → String → Ordering} {at_ : String}

/-- The attributes `pairs` were read in order from `entries`. -/
structure ReadFrom (localeCompare : String → String → Ordering) (entries : List (String × JsValue))
    (pairs : List (String × String)) : Prop where
  within : entries.length ≤ MAX_ATTRIBUTES
  nonempty : entries ≠ []
  sorted : entries.mergeSort (readBefore localeCompare) = pairs.map textEntry
  texts : ∀ e ∈ pairs, isText e.1 = true ∧ isText e.2 = true

theorem ReadFrom.mem {entries : List (String × JsValue)} {pairs : List (String × String)}
    (h : ReadFrom localeCompare entries pairs) {entry : String × JsValue} :
    entry ∈ entries ↔ ∃ pair ∈ pairs, textEntry pair = entry := by
  rw [← @List.mem_mergeSort _ (readBefore localeCompare), h.sorted, List.mem_map]

theorem ReadFrom.mem_pair {entries : List (String × JsValue)} {pairs : List (String × String)}
    (h : ReadFrom localeCompare entries pairs) {pair : String × String} :
    pair ∈ pairs ↔ textEntry pair ∈ entries := by
  rw [h.mem]
  constructor
  · intro hpair
    exact ⟨pair, hpair, rfl⟩
  · rintro ⟨other, hother, heq⟩
    have hname : other.1 = pair.1 := (Prod.ext_iff.mp heq).1
    have htext : other.2 = pair.2 := JsValue.str.inj (Prod.ext_iff.mp heq).2
    obtain rfl : other = pair := Prod.ext hname htext
    exact hother

theorem ReadFrom.distinct {entries : List (String × JsValue)} {pairs : List (String × String)}
    (h : ReadFrom localeCompare entries pairs) (hd : (entries.map Prod.fst).Nodup) :
    (pairs.map Prod.fst).Nodup := by
  have hnames : (entries.mergeSort (readBefore localeCompare)).map Prod.fst = pairs.map Prod.fst := by
    rw [h.sorted, List.map_map]
    rfl
  rw [← hnames]
  exact ((List.mergeSort_perm entries _).map Prod.fst).nodup_iff.mpr hd

/-- What a copy of attributes holds. -/
theorem normalizeAttributes_ok {value : JsValue} {attributes : Option RuleAttributes}
    (h : normalizeAttributes localeCompare at_ value = .ok attributes) :
    (attributes = none ∧ (value = .undefined ∨ value = .obj [])) ∨
      ∃ entries pairs, value = .obj entries ∧ ReadFrom localeCompare entries pairs ∧
        attributes = some (pairs.foldl (fun attributes entry => attributes.assign entry.1 entry.2)
          RuleAttributes.empty) := by
  cases value with
  | undefined => exact .inl ⟨(Except.ok.inj h).symm, .inl rfl⟩
  | obj entries =>
    simp only [normalizeAttributes] at h
    split at h
    · cases h
    · next hwithin =>
      obtain ⟨pairs, hpairs, h⟩ := bind_eq_ok h
      obtain ⟨hsorted, htexts⟩ := normalizeAttribute_each.mp hpairs
      obtain rfl := Except.ok.inj h
      cases entries with
      | nil => exact .inl ⟨rfl, .inr rfl⟩
      | cons entry rest =>
        refine .inr ⟨entry :: rest, pairs, rfl, ⟨Nat.le_of_not_lt hwithin, ?_, hsorted, htexts⟩, rfl⟩
        exact List.cons_ne_nil _ _
  | null | bool | num | str | arr => cases h

/-- A rule that was copied from a value. -/
structure Copied (rule : JsValue) (r : ApiKeyResourceRule) : Prop where
  type : (rule.prop "type" = .undefined ∧ r.type = none) ∨
    ∃ s ∈ RESOURCE_TYPES, rule.prop "type" = .str s ∧ r.type = some s
  id : (rule.prop "id" = .undefined ∧ r.id = none) ∨
    ∃ s, rule.prop "id" = .str s ∧ r.id = some s
  texts : ∀ entry ∈ listedAttributes rule, ∃ text, entry.2 = .str text
  distinct : ((listedAttributes rule).map Prod.fst).Nodup
  /-- Every attribute but `__proto__` is kept, and no other added. -/
  kept : ∀ key text, (key, text) ∈ r.attributeEntries ↔
    key ≠ "__proto__" ∧ (key, .str text) ∈ listedAttributes rule
  present : r.attributes.isSome = true ↔ listedAttributes rule ≠ []

theorem ReadFrom.kept {entries : List (String × JsValue)} {pairs : List (String × String)}
    (h : ReadFrom localeCompare entries pairs) (hd : (entries.map Prod.fst).Nodup)
    {key text : String} :
    (key, text) ∈ (pairs.foldl (fun attributes entry => attributes.assign entry.1 entry.2)
      RuleAttributes.empty).entries ↔ key ≠ "__proto__" ∧ (key, .str text) ∈ entries := by
  rw [entries_of_assigns (h.distinct hd), List.mem_filter, h.mem_pair, and_comm, bne_iff_ne]
  rfl

/-- Where a rule stands. -/
def ruleAt (index : Nat) : String := "restrictions.resources[" ++ toString index ++ "]"

/-- What is asked of a rule. -/
theorem normalizeRule_eq_ok {index : Nat} {rule : JsValue} {r : ApiKeyResourceRule} :
    normalizeRule localeCompare index rule = .ok r ↔ ∃ fields, rule = .obj fields ∧
      onlyFields ["type", "id", "attributes"] (fun name => ruleAt index ++ "." ++ name) fields =
        .ok () ∧
      normalizeType (ruleAt index) (rule.prop "type") = .ok r.type ∧
      normalizeId (ruleAt index) (rule.prop "id") = .ok r.id ∧
      normalizeAttributes localeCompare (ruleAt index) (rule.prop "attributes") = .ok r.attributes ∧
      (r.type.isNone && r.id.isNone && r.attributes.isNone) = false := by
  constructor
  · intro h
    unfold normalizeRule at h
    dsimp only at h
    split at h
    · next fields =>
      obtain ⟨⟨⟩, honly, h⟩ := bind_eq_ok h
      obtain ⟨type, htype, h⟩ := bind_eq_ok h
      obtain ⟨id, hid, h⟩ := bind_eq_ok h
      obtain ⟨attributes, hattributes, h⟩ := bind_eq_ok h
      split at h
      · cases h
      · next hset =>
        obtain rfl := Except.ok.inj h
        exact ⟨fields, rfl, honly, htype, hid, hattributes, eq_false_of_ne_true hset⟩
    · cases h
  · rintro ⟨fields, rfl, honly, htype, hid, hattributes, hset⟩
    refine bind_of_ok honly (bind_of_ok htype (bind_of_ok hid (bind_of_ok hattributes ?_)))
    rw [if_neg (ne_true_of_eq_false hset)]
    rfl

theorem copied_of_normalizeRule {index : Nat} {rule : JsValue} {r : ApiKeyResourceRule}
    (hwf : rule.isWellFormed = true) (h : normalizeRule localeCompare index rule = .ok r) :
    Copied rule r := by
  have hattrs := JsValue.isWellFormed_prop hwf "attributes"
  obtain ⟨fields, rfl, -, htype, hid, hattributes, -⟩ := normalizeRule_eq_ok.mp h
  have htype' := normalizeType_eq_ok.mp htype
  have hid' : ((JsValue.obj fields).prop "id" = .undefined ∧ r.id = none) ∨
      ∃ s, (JsValue.obj fields).prop "id" = .str s ∧ r.id = some s := by
    rcases normalizeId_eq_ok.mp hid with hnone | ⟨s, -, hs⟩
    · exact .inl hnone
    · exact .inr ⟨s, hs⟩
  rcases normalizeAttributes_ok hattributes with ⟨hstored, hnone⟩ | ⟨entries, pairs, hobj, hread, hstored⟩
  · have hlisted : listedAttributes (.obj fields) = [] := by
      unfold listedAttributes
      rcases hnone with hnone | hnone
      · rw [hnone]
      · rw [hnone]
    have hentries : r.attributeEntries = [] := by
      unfold ApiKeyResourceRule.attributeEntries
      rw [hstored]
    refine ⟨htype', hid', ?_, ?_, ?_, ?_⟩
    · rw [hlisted]
      exact fun _ he => (by cases he)
    · rw [hlisted]
      exact List.nodup_nil
    · intro key text
      rw [hlisted, hentries]
      exact ⟨fun he => (by cases he), fun he => (by cases he.2)⟩
    · rw [hlisted, hstored]
      exact ⟨fun hs => (by cases hs), fun hs => absurd rfl hs⟩
  · have hlisted : listedAttributes (.obj fields) = entries := by
      unfold listedAttributes
      rw [hobj]
    have hd : (entries.map Prod.fst).Nodup := by
      rw [hobj] at hattrs
      exact of_decide_eq_true (Bool.and_eq_true_iff.mp hattrs).1
    refine ⟨htype', hid', ?_, ?_, ?_, ?_⟩
    · rw [hlisted]
      intro entry hentry
      obtain ⟨pair, -, rfl⟩ := hread.mem.mp hentry
      exact ⟨pair.2, rfl⟩
    · rw [hlisted]
      exact hd
    · intro key text
      unfold ApiKeyResourceRule.attributeEntries
      rw [hlisted, hstored]
      exact hread.kept hd
    · rw [hlisted, hstored]
      exact ⟨fun _ => hread.nonempty, fun _ => rfl⟩

end copying

/-! ## What a copied rule matches -/

/-- What it takes to match the texts of a rule. -/
structure Meets (r : ApiKeyResourceRule) (listed : String → String → Prop)
    (resource : ServiceResource) : Prop where
  type : ∀ s, r.type = some s → resource.type = s
  id : ∀ s, r.id = some s → resource.id = some s
  attributes : ∀ key text, listed key text → resource.attribute key = some text

theorem ruleMatches_iff_meets {r : ApiKeyResourceRule} {resource : ServiceResource} :
    ruleMatches r resource = true ↔
      Meets r (fun key text => (key, text) ∈ r.attributeEntries) resource := by
  simp only [ruleMatches, Bool.and_eq_true, List.all_eq_true, beq_iff_eq, agrees_iff]
  constructor
  · rintro ⟨⟨htype, hid⟩, hattrs⟩
    exact ⟨fun s hs => Option.some.inj (htype s hs), hid, fun key text he => hattrs _ he⟩
  · rintro ⟨htype, hid, hattrs⟩
    exact ⟨⟨fun s hs => congrArg some (htype s hs), hid⟩, fun entry he => hattrs entry.1 entry.2 he⟩

theorem Copied.writtenMatches_iff {rule : JsValue} {r : ApiKeyResourceRule} (h : Copied rule r)
    {resource : ServiceResource} : writtenMatches rule resource = true ↔
      Meets r (fun key text => (key, .str text) ∈ listedAttributes rule) resource := by
  have hfield : ∀ {value : JsValue} {field actual : Option String},
      (value = .undefined ∧ field = none) ∨ (∃ s, value = .str s ∧ field = some s) →
      (writtenField value actual = true ↔ ∀ s, field = some s → actual = some s) := by
    rintro value field actual (⟨rfl, rfl⟩ | ⟨s, rfl, rfl⟩)
    · exact ⟨fun _ s hs => (by cases hs), fun _ => rfl⟩
    · show actual.any (JsValue.str s).isText = true ↔ _
      rw [Option.any_eq_true]
      constructor
      · rintro ⟨t, rfl, ht⟩ s' hs'
        obtain rfl := Option.some.inj hs'
        rw [JsValue.str.inj ((JsValue.isText_iff _ _).mp ht)]
      · intro hactual
        exact ⟨s, hactual s rfl, (JsValue.isText_iff _ _).mpr rfl⟩
  have htype := @hfield _ _ (some resource.type) (h.type.imp_right fun ⟨s, _, hs⟩ => ⟨s, hs⟩)
  have hid := @hfield _ _ resource.id h.id
  simp only [writtenMatches, Bool.and_eq_true, List.all_eq_true, htype, hid]
  constructor
  · rintro ⟨⟨htype, hid⟩, hattrs⟩
    refine ⟨fun s hs => Option.some.inj (htype s hs), hid, fun key text he => ?_⟩
    obtain ⟨t, ht, htext⟩ := (Option.any_eq_true _ _).mp (hattrs _ he)
    rw [ht, JsValue.str.inj ((JsValue.isText_iff _ _).mp htext)]
  · rintro ⟨htype, hid, hattrs⟩
    refine ⟨⟨fun s hs => congrArg some (htype s hs), hid⟩, fun entry he => ?_⟩
    obtain ⟨text, htext⟩ := h.texts entry he
    have hactual := hattrs entry.1 text (htext ▸ he)
    exact (Option.any_eq_true _ _).mpr ⟨text, hactual, (JsValue.isText_iff _ _).mpr htext⟩

/-- A copy matches whatever the rule as written does. -/
theorem Copied.matches_of_written {rule : JsValue} {r : ApiKeyResourceRule} (h : Copied rule r)
    {resource : ServiceResource} (hm : writtenMatches rule resource = true) :
    ruleMatches r resource = true := by
  obtain ⟨htype, hid, hattrs⟩ := h.writtenMatches_iff.mp hm
  exact ruleMatches_iff_meets.mpr
    ⟨htype, hid, fun key text he => hattrs key text ((h.kept key text).mp he).2⟩

/-- Where nothing was lost it matches no more. -/
theorem Copied.written_of_matches {rule : JsValue} {r : ApiKeyResourceRule} (h : Copied rule r)
    (hproto : ∀ entry ∈ listedAttributes rule, entry.1 ≠ "__proto__") {resource : ServiceResource}
    (hm : ruleMatches r resource = true) : writtenMatches rule resource = true := by
  obtain ⟨htype, hid, hattrs⟩ := ruleMatches_iff_meets.mp hm
  exact h.writtenMatches_iff.mpr
    ⟨htype, hid, fun key text he => hattrs key text ((h.kept key text).mpr ⟨hproto _ he, he⟩)⟩

theorem mem_without {r : ApiKeyResourceRule} {name key text : String} :
    (key, text) ∈ (r.without name).attributeEntries ↔
      key ≠ name ∧ (key, text) ∈ r.attributeEntries := by
  unfold ApiKeyResourceRule.without ApiKeyResourceRule.attributeEntries
  cases r.attributes with
  | none => exact ⟨fun h => (by cases h), fun h => (by cases h.2)⟩
  | some attributes =>
    show (key, text) ∈ attributes.entries.filter (fun entry => entry.1 != name) ↔ _
    rw [List.mem_filter, bne_iff_ne, and_comm]

/-- The rule as it is written lists what the value lists. -/
theorem Copied.mem_asWritten {rule : JsValue} {r : ApiKeyResourceRule} (h : Copied rule r)
    {key text : String} :
    (key, text) ∈ (asWritten rule).attributeEntries ↔ (key, .str text) ∈ listedAttributes rule := by
  have hread : ∀ {entry : String × JsValue} {pair : String × String},
      (entry.2.text?.map fun text => (entry.1, text)) = some pair ↔ entry = textEntry pair := by
    intro entry pair
    rw [Option.map_eq_some_iff]
    constructor
    · rintro ⟨text, htext, rfl⟩
      refine Prod.ext rfl ?_
      cases hv : entry.2 with
      | str s =>
        rw [hv] at htext
        rw [Option.some.inj htext]
        rfl
      | undefined | null | bool | num | arr | obj =>
        rw [hv] at htext
        cases htext
    · rintro rfl
      exact ⟨pair.2, rfl, rfl⟩
  have hdistinct : (((listedAttributes rule).filterMap fun entry =>
      entry.2.text?.map fun text => (entry.1, text)).map Prod.fst).Nodup := by
    have hd := h.distinct
    rw [List.Nodup, List.pairwise_map] at hd ⊢
    rw [List.pairwise_filterMap]
    refine hd.imp ?_
    intro a b hne pair hpair pair' hpair'
    rw [hread.mp hpair, hread.mp hpair'] at hne
    exact hne
  show (key, text) ∈ (RuleAttributes.entries _) ↔ _
  rw [entries_of_sets hdistinct _ (fun e _ he => by cases he)]
  show (key, text) ∈ [] ++ _ ↔ _
  rw [List.nil_append, List.mem_filterMap]
  constructor
  · rintro ⟨entry, hentry, hpair⟩
    rw [hread.mp hpair] at hentry
    exact hentry
  · intro hmem
    exact ⟨_, hmem, hread.mpr rfl⟩

theorem Copied.type_asWritten {rule : JsValue} {r : ApiKeyResourceRule} (h : Copied rule r) :
    (asWritten rule).type = r.type := by
  show (rule.prop "type").text? = r.type
  rcases h.type with ⟨hv, hr⟩ | ⟨s, -, hv, hr⟩
  · rw [hv, hr]
    rfl
  · rw [hv, hr]
    rfl

theorem Copied.id_asWritten {rule : JsValue} {r : ApiKeyResourceRule} (h : Copied rule r) :
    (asWritten rule).id = r.id := by
  show (rule.prop "id").text? = r.id
  rcases h.id with ⟨hv, hr⟩ | ⟨s, hv, hr⟩
  · rw [hv, hr]
    rfl
  · rw [hv, hr]
    rfl

/-- The record of a rule as written matches what the rule does. -/
theorem Copied.matches_asWritten {rule : JsValue} {r : ApiKeyResourceRule} (h : Copied rule r)
    {resource : ServiceResource} :
    ruleMatches (asWritten rule) resource = true ↔ writtenMatches rule resource = true := by
  rw [ruleMatches_iff_meets, h.writtenMatches_iff]
  constructor
  · rintro ⟨htype, hid, hattrs⟩
    exact ⟨fun s hs => htype s (h.type_asWritten.trans hs), fun s hs => hid s (h.id_asWritten.trans hs),
      fun key text he => hattrs key text (h.mem_asWritten.mpr he)⟩
  · rintro ⟨htype, hid, hattrs⟩
    exact ⟨fun s hs => htype s (h.type_asWritten.symm.trans hs),
      fun s hs => hid s (h.id_asWritten.symm.trans hs),
      fun key text he => hattrs key text (h.mem_asWritten.mp he)⟩

/-- What a rule narrows is told from its parts. -/
theorem ruleNarrows_congr {r r' outer : ApiKeyResourceRule} (htype : r.type = r'.type)
    (hid : r.id = r'.id) (hattrs : ∀ key text, (key, text) ∈ r.attributeEntries ↔
      (key, text) ∈ r'.attributeEntries) : ruleNarrows r outer = ruleNarrows r' outer := by
  have hattribute : r.attribute = r'.attribute := by
    funext key
    refine Option.ext fun text => ?_
    rw [ApiKeyResourceRule.attribute_eq_some, ApiKeyResourceRule.attribute_eq_some]
    exact hattrs key text
  unfold ruleNarrows
  rw [htype, hid, hattribute]

/-- A copy narrows what the rule as written does without `__proto__`. -/
theorem Copied.narrows {rule : JsValue} {r : ApiKeyResourceRule} (h : Copied rule r)
    (outer : ApiKeyResourceRule) :
    ruleNarrows r outer = ruleNarrows ((asWritten rule).without "__proto__") outer := by
  refine ruleNarrows_congr h.type_asWritten.symm h.id_asWritten.symm fun key text => ?_
  rw [h.kept, mem_without, h.mem_asWritten]

/-! ## A resource for a rule -/

/-- The resource of a rule: it has what the rule requires, and nothing else. -/
def resourceFor (r : ApiKeyResourceRule) : ServiceResource where
  type := r.type.getD ""
  tenantId := ""
  id := r.id
  attributes := r.attributeEntries

theorem attribute_resourceFor (r : ApiKeyResourceRule) (key : String) :
    (resourceFor r).attribute key = r.attribute key := by
  show r.attributeEntries.lookup key = r.attribute key
  unfold ApiKeyResourceRule.attribute ApiKeyResourceRule.attributeEntries
  cases r.attributes with
  | none => rfl
  | some attributes => rfl

theorem matches_resourceFor (r : ApiKeyResourceRule) : ruleMatches r (resourceFor r) = true := by
  refine ruleMatches_iff_meets.mpr ⟨fun s hs => ?_, fun s hs => hs, fun key text he => ?_⟩
  · show r.type.getD "" = s
    rw [hs]
    rfl
  · rw [attribute_resourceFor]
    exact ApiKeyResourceRule.attribute_eq_some.mpr he

/-- Only a rule it narrows matches its resource. -/
theorem narrows_of_matches {r outer : ApiKeyResourceRule} (htype : outer.type ≠ some "")
    (h : ruleMatches outer (resourceFor r) = true) : ruleNarrows r outer = true := by
  obtain ⟨htypes, hids, hattrs⟩ := ruleMatches_iff_meets.mp h
  simp only [ruleNarrows, Bool.and_eq_true, List.all_eq_true, beq_iff_eq, agrees_iff]
  refine ⟨⟨fun s hs => ?_, hids⟩, fun entry he => ?_⟩
  · have hreq : r.type.getD "" = s := htypes s hs
    cases hr : r.type with
    | some t =>
      rw [hr] at hreq
      exact congrArg some hreq
    | none =>
      rw [hr] at hreq
      rw [hs, ← hreq] at htype
      exact absurd rfl htype
  · rw [← attribute_resourceFor]
    exact hattrs entry.1 entry.2 he

/-! ## Normalizing again -/

section again

variable {localeCompare : String → String → Ordering}

/-- The value of a field that may be there. -/
def fieldValue : Option String → JsValue
  | some text => .str text
  | none => .undefined

theorem prop_toJs (r : ApiKeyResourceRule) :
    r.toJs.prop "type" = fieldValue r.type ∧ r.toJs.prop "id" = fieldValue r.id ∧
      r.toJs.prop "attributes" = match r.attributes with
        | some attributes => attributes.toJs
        | none => .undefined := by
  obtain ⟨type, id, attributes⟩ := r
  cases type <;> cases id <;> cases attributes <;>
    simp [ApiKeyResourceRule.toJs, textField, fieldValue, JsValue.prop, List.lookup_cons]

theorem onlyFields_toJs (r : ApiKeyResourceRule) (describe : String → String) :
    ∃ fields, r.toJs = .obj fields ∧
      onlyFields ["type", "id", "attributes"] describe fields = .ok () := by
  refine ⟨_, rfl, ?_⟩
  obtain ⟨type, id, attributes⟩ := r
  cases type <;> cases id <;> cases attributes <;> simp [textField, onlyFields]

theorem readBefore_iff {α : Type} {a b : String × α} :
    readBefore localeCompare a b = true ↔ (localeCompare a.1 b.1).isLE = true := by
  unfold readBefore
  cases localeCompare a.1 b.1 <;> decide

theorem sorted_readBefore [Std.TransCmp localeCompare] {α : Type} (entries : List (String × α)) :
    (entries.mergeSort (readBefore localeCompare)).Pairwise
      (fun a b => readBefore localeCompare a b = true) := by
  refine List.pairwise_mergeSort (fun a b c hab hbc => ?_) (fun a b => ?_) entries
  · rw [readBefore_iff] at hab hbc ⊢
    exact Std.TransCmp.isLE_trans hab hbc
  · rw [Bool.or_eq_true, readBefore_iff, readBefore_iff]
    by_cases h : (localeCompare a.1 b.1).isLE = true
    · exact .inl h
    · exact .inr (Std.OrientedCmp.isLE_of_isGE (by
        cases hcmp : localeCompare a.1 b.1 with
        | lt =>
          rw [hcmp] at h
          exact absurd rfl h
        | eq | gt => rfl))

/-- A copy of attributes that lost not all of them is copied as it is. -/
theorem normalizeAttributes_toJs [Std.TransCmp localeCompare] {at_ : String}
    {entries : List (String × JsValue)} {pairs : List (String × String)}
    (hread : ReadFrom localeCompare entries pairs) (hd : (entries.map Prod.fst).Nodup)
    {attributes : RuleAttributes} (hcopy : attributes = pairs.foldl
      (fun attributes entry => attributes.assign entry.1 entry.2) RuleAttributes.empty)
    (hleft : attributes.entries ≠ []) :
    normalizeAttributes localeCompare at_ attributes.toJs = .ok (some attributes) := by
  have hkept : attributes.entries = pairs.filter fun entry => entry.1 != "__proto__" := by
    rw [hcopy, entries_of_assigns (hread.distinct hd)]
  have hsorted : (attributes.entries.map textEntry).mergeSort (readBefore localeCompare) =
      attributes.entries.map textEntry := by
    have hall : (entries.mergeSort (readBefore localeCompare)).Pairwise
        (fun a b => readBefore localeCompare a b = true) := sorted_readBefore entries
    rw [hread.sorted] at hall
    rw [hkept]
    exact List.mergeSort_of_pairwise (hall.sublist (List.filter_sublist.map _))
  have hwithin : attributes.entries.length ≤ MAX_ATTRIBUTES := by
    have hlength := congrArg List.length hread.sorted
    rw [List.length_mergeSort, List.length_map] at hlength
    have hfilter : attributes.entries.length ≤ pairs.length := by
      rw [hkept]
      exact List.length_filter_le _ _
    have hentries := hread.within
    omega
  have htexts : ∀ e ∈ attributes.entries, isText e.1 = true ∧ isText e.2 = true := by
    intro e he
    rw [hkept] at he
    exact hread.texts e (List.mem_filter.mp he).1
  have hsame : attributes.entries.foldl (fun attributes entry => attributes.assign entry.1 entry.2)
      RuleAttributes.empty = attributes := by
    have hentries := entries_of_assigns attributes.distinct
    have hproto : attributes.entries.filter (fun entry => entry.1 != "__proto__") =
        attributes.entries := by
      rw [hkept, List.filter_filter]
      simp
    rw [hproto] at hentries
    generalize attributes.entries.foldl (fun attributes entry => attributes.assign entry.1 entry.2)
      RuleAttributes.empty = copy at hentries ⊢
    obtain ⟨copied, hcopied⟩ := copy
    obtain ⟨own, hown⟩ := attributes
    obtain rfl : copied = own := hentries
    rfl
  show (if (attributes.entries.map textEntry).length > MAX_ATTRIBUTES then _ else _) = _
  rw [if_neg (by rw [List.length_map]; omega)]
  refine bind_of_ok (normalizeAttribute_each.mpr ⟨hsorted, htexts⟩) ?_
  rw [hsame, if_neg]
  · rfl
  · rw [List.isEmpty_map, List.isEmpty_iff]
    exact hleft

/-- A copy that kept an attribute, or listed none, is copied as it is. -/
theorem normalizeRule_toJs [Std.TransCmp localeCompare] {index : Nat} {rule : JsValue}
    {r : ApiKeyResourceRule} (hwf : rule.isWellFormed = true)
    (h : normalizeRule localeCompare index rule = .ok r)
    (hleft : r.attributes.isSome = true → r.attributeEntries ≠ []) (index' : Nat) :
    normalizeRule localeCompare index' r.toJs = .ok r := by
  obtain ⟨fields, rfl, -, htype, hid, hattributes, hset⟩ := normalizeRule_eq_ok.mp h
  obtain ⟨fields', hfields', honly⟩ := onlyFields_toJs r fun name => ruleAt index' ++ "." ++ name
  obtain ⟨hptype, hpid, hpattributes⟩ := prop_toJs r
  refine normalizeRule_eq_ok.mpr ⟨fields', hfields', honly, ?_, ?_, ?_, hset⟩
  · rw [hptype]
    refine normalizeType_eq_ok.mpr ?_
    rcases normalizeType_eq_ok.mp htype with ⟨-, hnone⟩ | ⟨s, hs, -, hsome⟩
    · rw [hnone]
      exact .inl ⟨rfl, rfl⟩
    · rw [hsome]
      exact .inr ⟨s, hs, rfl, rfl⟩
  · rw [hpid]
    refine normalizeId_eq_ok.mpr ?_
    rcases normalizeId_eq_ok.mp hid with ⟨-, hnone⟩ | ⟨s, hs, -, hsome⟩
    · rw [hnone]
      exact .inl ⟨rfl, rfl⟩
    · rw [hsome]
      exact .inr ⟨s, hs, rfl, rfl⟩
  · rw [hpattributes]
    rcases normalizeAttributes_ok hattributes with ⟨hnone, -⟩ | ⟨entries, pairs, hobj, hread, hsome⟩
    · rw [hnone]
      rfl
    · have hd : (entries.map Prod.fst).Nodup := by
        have hobject := JsValue.isWellFormed_prop hwf "attributes"
        rw [hobj] at hobject
        exact of_decide_eq_true (Bool.and_eq_true_iff.mp hobject).1
      have hentries : r.attributeEntries = (pairs.foldl
          (fun attributes entry => attributes.assign entry.1 entry.2) RuleAttributes.empty).entries := by
        unfold ApiKeyResourceRule.attributeEntries
        rw [hsome]
      have hne := hleft (by rw [hsome]; rfl)
      rw [hentries] at hne
      rw [hsome]
      exact normalizeAttributes_toJs hread hd rfl hne

/-- Normalizing again needs every rule to have kept what it listed. -/
theorem kept_of_normalizeRule {index : Nat} {r : ApiKeyResourceRule}
    (h : normalizeRule localeCompare index r.toJs = .ok r) (hsome : r.attributes.isSome = true) :
    r.attributeEntries ≠ [] := by
  obtain ⟨_, -, -, -, -, hattributes, -⟩ := normalizeRule_eq_ok.mp h
  rw [(prop_toJs r).2.2] at hattributes
  unfold ApiKeyResourceRule.attributeEntries
  cases hr : r.attributes with
  | none =>
    rw [hr] at hsome
    cases hsome
  | some attributes =>
    rw [hr] at hattributes
    intro hentries
    have hempty : attributes.entries = [] := hentries
    have hnone : normalizeAttributes localeCompare (ruleAt index) attributes.toJs = .ok none := by
      have hobj : attributes.toJs = .obj [] := by
        unfold RuleAttributes.toJs
        rw [hempty]
        rfl
      rw [hobj]
      simp [normalizeAttributes]
      rfl
    rw [hnone] at hattributes
    cases hattributes

theorem normalizeCapabilities_ok {value : JsValue} {capabilities : List String}
    (h : normalizeCapabilities value = .ok capabilities) :
    ∃ names, value = .arr (names.map .str) ∧ names.length ≤ MAX_CAPABILITIES ∧
      (∀ name ∈ names, name ∈ CAPABILITIES) ∧
      capabilities = (distinct names).mergeSort fun a b => decide (a ≤ b) := by
  cases value with
  | arr values =>
    simp only [normalizeCapabilities] at h
    split at h
    · cases h
    · next hwithin =>
      cases hnames : values.mapM normalizeCapability with
      | error e =>
        rw [hnames] at h
        cases h
      | ok names =>
        rw [hnames] at h
        obtain ⟨rfl, hknown⟩ := (mapM_eq_ok fun _ _ => normalizeCapability_eq_ok).mp hnames
        rw [List.length_map] at hwithin
        exact ⟨names, rfl, Nat.le_of_not_lt hwithin, hknown, (Except.ok.inj h).symm⟩
  | undefined | null | bool | num | str | obj => cases h

/-- The capabilities of a ceiling are accepted as they are. -/
theorem normalizeCapabilities_toJs {value : JsValue} {capabilities : List String}
    (h : normalizeCapabilities value = .ok capabilities) :
    normalizeCapabilities (.arr (capabilities.map .str)) = .ok capabilities := by
  obtain ⟨names, -, hwithin, hknown, rfl⟩ := normalizeCapabilities_ok h
  have hperm := List.mergeSort_perm (distinct names) fun a b => decide (a ≤ b)
  generalize hsorted : (distinct names).mergeSort (fun a b => decide (a ≤ b)) = sorted at hperm
  have hlength : sorted.length ≤ MAX_CAPABILITIES := by
    rw [hperm.length_eq]
    exact Nat.le_trans (length_distinct_le names) hwithin
  have hnames : (sorted.map JsValue.str).mapM normalizeCapability = .ok sorted := by
    refine (mapM_eq_ok fun _ _ => normalizeCapability_eq_ok).mpr ⟨rfl, fun name hname => ?_⟩
    exact hknown name (mem_distinct.mp (hperm.mem_iff.mp hname))
  have hagain : (distinct sorted).mergeSort (fun a b => decide (a ≤ b)) = sorted := by
    rw [distinct_of_nodup (hperm.nodup_iff.mpr (nodup_distinct names))]
    refine List.mergeSort_of_pairwise ?_
    rw [← hsorted]
    refine List.pairwise_mergeSort (fun a b c hab hbc => ?_) (fun a b => ?_) _
    · simp only [decide_eq_true_eq] at hab hbc ⊢
      exact String.le_trans hab hbc
    · simp only [Bool.or_eq_true, decide_eq_true_eq]
      exact String.le_total a b
  simp only [normalizeCapabilities]
  rw [if_neg (by rw [List.length_map]; omega), hnames]
  exact congrArg Except.ok hagain

/-- Rules are normalized one by one. -/
theorem normalizeRules_ok {index : Nat} {values : List JsValue} {rules : List ApiKeyResourceRule}
    (h : normalizeRules localeCompare index values = .ok rules) :
    List.Forall₂ (fun value rule => ∃ i, normalizeRule localeCompare i value = .ok rule)
      values rules := by
  induction values generalizing index rules with
  | nil =>
    obtain rfl := Except.ok.inj h
    exact .nil
  | cons value rest ih =>
    obtain ⟨rule, hrule, h⟩ := bind_eq_ok h
    obtain ⟨others, hothers, h⟩ := bind_eq_ok h
    obtain rfl := Except.ok.inj h
    exact .cons ⟨index, hrule⟩ (ih hothers)

theorem normalizeRules_of_each {values : List JsValue} {rules : List ApiKeyResourceRule}
    (h : List.Forall₂ (fun value rule => ∀ i, normalizeRule localeCompare i value = .ok rule)
      values rules) (index : Nat) : normalizeRules localeCompare index values = .ok rules := by
  induction h generalizing index with
  | nil => rfl
  | cons hrule _ ih => exact bind_of_ok (hrule index) (bind_of_ok (ih (index + 1)) rfl)

theorem normalizeRestrictions_ok {value : JsValue} {r : ApiKeyRestrictions}
    (h : normalizeRestrictions localeCompare value = .ok r) :
    normalizeCapabilities (value.prop "capabilities") = .ok r.capabilities ∧
      normalizeResources localeCompare (value.prop "resources") = .ok r.resources := by
  unfold normalizeRestrictions at h
  split at h
  · obtain ⟨-, -, h⟩ := bind_eq_ok h
    obtain ⟨capabilities, hcapabilities, h⟩ := bind_eq_ok h
    obtain ⟨resources, hresources, h⟩ := bind_eq_ok h
    obtain rfl := Except.ok.inj h
    exact ⟨hcapabilities, hresources⟩
  · cases h

/-- The rules of a ceiling are those it lists, each copied. -/
theorem normalizeResources_ok {value : JsValue} {resources : Option (List ApiKeyResourceRule)}
    (h : normalizeResources localeCompare value = .ok resources) :
    (value = .undefined ∧ resources = none) ∨ ∃ values rules, value = .arr values ∧
      resources = some rules ∧ values.length ≤ MAX_RESOURCE_RULES ∧
      List.Forall₂ (fun value rule => ∃ i, normalizeRule localeCompare i value = .ok rule)
        values rules := by
  cases value with
  | undefined => exact .inl ⟨rfl, (Except.ok.inj h).symm⟩
  | arr values =>
    simp only [normalizeResources] at h
    split at h
    · cases h
    · next hwithin =>
      cases hrules : normalizeRules localeCompare 0 values with
      | error e =>
        rw [hrules] at h
        cases h
      | ok rules =>
        rw [hrules] at h
        exact .inr ⟨values, rules, rfl, (Except.ok.inj h).symm, Nat.le_of_not_lt hwithin,
          normalizeRules_ok hrules⟩
  | null | bool | num | str | obj => cases h

/-- **A ceiling that kept what it listed is accepted as it is.** -/
theorem normalizeRestrictions_toJs [Std.TransCmp localeCompare] {value : JsValue}
    {r : ApiKeyRestrictions} (hwf : value.isWellFormed = true)
    (h : normalizeRestrictions localeCompare value = .ok r)
    (hleft : ∀ rules, r.resources = some rules → ∀ rule ∈ rules, rule.attributes.isSome = true →
      rule.attributeEntries ≠ []) :
    normalizeRestrictions localeCompare r.toJs = .ok r := by
  obtain ⟨hcapabilities, hresources⟩ := normalizeRestrictions_ok h
  have hresources' : normalizeResources localeCompare (match r.resources with
      | some rules => .arr (rules.map ApiKeyResourceRule.toJs)
      | none => .undefined) = .ok r.resources := by
    rcases normalizeResources_ok hresources with ⟨-, hnone⟩ | ⟨values, rules, hvalues, hsome, hwithin, hall⟩
    · rw [hnone]
      rfl
    · have hvaluesWf := JsValue.isWellFormed_prop hwf "resources"
      rw [hvalues] at hvaluesWf
      have hkeep := hleft rules hsome
      have hagain : List.Forall₂ (fun value rule => ∀ i,
          normalizeRule localeCompare i value = .ok rule) (rules.map ApiKeyResourceRule.toJs) rules := by
        clear hsome hvalues hwithin
        induction hall with
        | nil => exact .nil
        | @cons value rule values rules hrule _ ih =>
          obtain ⟨i, hrule⟩ := hrule
          obtain ⟨hvalueWf, hrestWf⟩ := Bool.and_eq_true_iff.mp hvaluesWf
          obtain ⟨hrulekeep, hrestkeep⟩ := List.forall_mem_cons.mp hkeep
          exact .cons (normalizeRule_toJs hvalueWf hrule hrulekeep) (ih hrestWf hrestkeep)
      rw [hsome]
      simp only [normalizeResources]
      rw [if_neg (by rw [List.length_map, ← hall.length_eq]; omega), normalizeRules_of_each hagain 0]
      rfl
  have hfields : ∃ fields, r.toJs = .obj fields ∧ onlyFields ["capabilities", "resources"]
      (fun name => "restrictions." ++ name) fields = .ok () := by
    refine ⟨_, rfl, ?_⟩
    cases r.resources <;> simp [onlyFields]
  have hprops : r.toJs.prop "capabilities" = .arr (r.capabilities.map JsValue.str) ∧
      r.toJs.prop "resources" = match r.resources with
        | some rules => .arr (rules.map ApiKeyResourceRule.toJs)
        | none => .undefined := by
    cases hr : r.resources <;> simp [ApiKeyRestrictions.toJs, JsValue.prop, List.lookup_cons, hr]
  obtain ⟨fields, hobj, honly⟩ := hfields
  rw [hobj] at hprops ⊢
  refine bind_of_ok honly (bind_of_ok ?_ (bind_of_ok ?_ rfl))
  · rw [hprops.1]
    exact normalizeCapabilities_toJs hcapabilities
  · rw [hprops.2]
    exact hresources'

end again

/-! ## What a ceiling keeps -/

/-- What is to hold of the ceiling that is stored for a value. -/
structure KeepsMeaning (localeCompare : String → String → Ordering) (value : JsValue)
    (r : ApiKeyRestrictions) : Prop where
  /-- It permits what the value, read literally, permits. -/
  meaning : ∀ capability resource,
    restrictionsPermit (some r) capability resource = writtenPermits value capability resource
  /-- Each of its rules constrains the type, the id or an attribute. -/
  constrains : ∀ rules, r.resources = some rules → ∀ rule ∈ rules, rule.constrains = true
  /-- It is accepted as it is. -/
  again : normalizeRestrictions localeCompare r.toJs = .ok r

/-- Where a rule lists an attribute `__proto__`, it lists another too, and, if the ceiling
lists a capability, without the one it narrows a rule as written. -/
def ProtoHarmless (value : JsValue) : Prop :=
  ∀ rule ∈ listedRules value, "__proto__" ∈ (listedAttributes rule).map Prod.fst →
    (∃ entry ∈ listedAttributes rule, entry.1 ≠ "__proto__") ∧
      (listedCapabilities value = [] ∨ ∃ outer ∈ listedRules value,
        ruleNarrows ((asWritten rule).without "__proto__") (asWritten outer) = true)

instance (value : JsValue) : Decidable (ProtoHarmless value) :=
  inferInstanceAs (Decidable (∀ rule ∈ listedRules value, _ → _ ∧ _))

section kept

variable {localeCompare : String → String → Ordering} {value : JsValue} {r : ApiKeyRestrictions}

/-- The rules of an accepted ceiling, with their copies. -/
theorem copies_of_normalized (hwf : value.isWellFormed = true)
    (h : normalizeRestrictions localeCompare value = .ok r) {rules : List ApiKeyResourceRule}
    (hrules : r.resources = some rules) : value.prop "resources" = .arr (listedRules value) ∧
      List.Forall₂ (fun rule copy => Copied rule copy ∧
        ∃ i, normalizeRule localeCompare i rule = .ok copy) (listedRules value) rules := by
  rcases normalizeResources_ok (normalizeRestrictions_ok h).2 with
    ⟨-, hnone⟩ | ⟨values, rules', hvalues, hsome, -, hall⟩
  · rw [hrules] at hnone
    cases hnone
  · rw [hrules] at hsome
    obtain rfl := Option.some.inj hsome
    have hlisted : listedRules value = values := by
      unfold listedRules
      rw [hvalues]
    have hvaluesWf := JsValue.isWellFormed_prop hwf "resources"
    rw [hvalues] at hvaluesWf
    rw [hlisted]
    refine ⟨hvalues, ?_⟩
    clear hvalues hlisted hrules hsome h
    induction hall with
    | nil => exact .nil
    | cons hrule _ ih =>
      obtain ⟨hruleWf, hrestWf⟩ := Bool.and_eq_true_iff.mp hvaluesWf
      obtain ⟨i, hrule⟩ := hrule
      exact .cons ⟨copied_of_normalizeRule hruleWf hrule, i, hrule⟩ (ih hrestWf)

theorem capability_listed_iff (h : normalizeRestrictions localeCompare value = .ok r)
    (capability : String) : r.capabilities.contains capability =
      (listedCapabilities value).any fun name => name.isText capability := by
  obtain ⟨names, hvalue, -, -, hsorted⟩ := normalizeCapabilities_ok (normalizeRestrictions_ok h).1
  have hlisted : listedCapabilities value = names.map .str := by
    unfold listedCapabilities
    rw [hvalue]
  rw [Bool.eq_iff_iff, List.contains_iff_mem, hsorted, List.mem_mergeSort, mem_distinct, hlisted,
    List.any_map, List.any_eq_true]
  simp only [Function.comp, JsValue.isText_iff, JsValue.str.injEq]
  constructor
  · intro hname
    exact ⟨capability, hname, rfl⟩
  · rintro ⟨name, hname, rfl⟩
    exact hname

/-- Under the condition a copy of a rule that lists attributes has one. -/
theorem attributes_left {rule : JsValue} {copy : ApiKeyResourceRule} (hcopy : Copied rule copy)
    (hother : "__proto__" ∈ (listedAttributes rule).map Prod.fst →
      ∃ entry ∈ listedAttributes rule, entry.1 ≠ "__proto__")
    (hsome : copy.attributes.isSome = true) : copy.attributeEntries ≠ [] := by
  have hlisted := hcopy.present.mp hsome
  have hexists : ∃ entry ∈ listedAttributes rule, entry.1 ≠ "__proto__" := by
    by_cases hproto : "__proto__" ∈ (listedAttributes rule).map Prod.fst
    · exact hother hproto
    · obtain ⟨entry, hentry⟩ := List.exists_mem_of_ne_nil _ hlisted
      refine ⟨entry, hentry, fun hname => hproto ?_⟩
      exact hname ▸ List.mem_map_of_mem hentry
  obtain ⟨entry, hentry, hname⟩ := hexists
  obtain ⟨text, htext⟩ := hcopy.texts entry hentry
  have hkept := (hcopy.kept entry.1 text).mpr ⟨hname, htext ▸ hentry⟩
  exact List.ne_nil_of_mem hkept

/-- A harmless ceiling keeps its meaning. -/
theorem meaning_of_harmless (hwf : value.isWellFormed = true)
    (h : normalizeRestrictions localeCompare value = .ok r) (hharmless : ProtoHarmless value)
    (capability : String) (resource : ServiceResource) :
    restrictionsPermit (some r) capability resource = writtenPermits value capability resource := by
  unfold restrictionsPermit writtenPermits
  dsimp only
  rw [capability_listed_iff h]
  cases hrules : r.resources with
  | none =>
    rcases normalizeResources_ok (normalizeRestrictions_ok h).2 with ⟨hvalue, -⟩ | ⟨_, _, -, hsome, -⟩
    · rw [hvalue]
    · rw [hrules] at hsome
      cases hsome
  | some rules =>
    obtain ⟨hvalue, hcopies⟩ := copies_of_normalized hwf h hrules
    rw [hvalue]
    cases hlisted : (listedCapabilities value).any fun name => name.isText capability with
    | false => rfl
    | true =>
      rw [Bool.true_and, Bool.true_and, Bool.eq_iff_iff, List.any_eq_true, List.any_eq_true]
      constructor
      · rintro ⟨copy, hcopy, hmatch⟩
        obtain ⟨rule, hrule, hcopied, -⟩ := exists_partner hcopies.flip copy hcopy
        by_cases hproto : "__proto__" ∈ (listedAttributes rule).map Prod.fst
        · obtain ⟨-, hnone | ⟨outer, houter, hnarrows⟩⟩ := hharmless rule hrule hproto
          · rw [hnone] at hlisted
            cases hlisted
          · obtain ⟨_, -, houterCopied, -⟩ := exists_partner hcopies outer houter
            rw [← hcopied.narrows] at hnarrows
            exact ⟨outer, houter,
              houterCopied.matches_asWritten.mp (ruleMatches_of_narrows hnarrows hmatch)⟩
        · refine ⟨rule, hrule, hcopied.written_of_matches (fun entry hentry hname => ?_) hmatch⟩
          exact hproto (hname ▸ List.mem_map_of_mem hentry)
      · rintro ⟨rule, hrule, hmatch⟩
        obtain ⟨copy, hcopy, hcopied, -⟩ := exists_partner hcopies rule hrule
        exact ⟨copy, hcopy, hcopied.matches_of_written hmatch⟩

/-- What narrows no rule as written permits what the ceiling as written does not. -/
theorem narrows_of_meaning (hwf : value.isWellFormed = true)
    (h : normalizeRestrictions localeCompare value = .ok r)
    (hmeaning : ∀ capability resource,
      restrictionsPermit (some r) capability resource = writtenPermits value capability resource)
    {rules : List ApiKeyResourceRule} (hrules : r.resources = some rules) {copy : ApiKeyResourceRule}
    (hcopy : copy ∈ rules) : listedCapabilities value = [] ∨
      ∃ outer ∈ listedRules value, ruleNarrows copy (asWritten outer) = true := by
  obtain ⟨hvalue, hcopies⟩ := copies_of_normalized hwf h hrules
  obtain ⟨names, hnames, -⟩ := normalizeCapabilities_ok (normalizeRestrictions_ok h).1
  have hlisted : listedCapabilities value = names.map .str := by
    unfold listedCapabilities
    rw [hnames]
  cases hfirst : names with
  | nil => exact .inl (by rw [hlisted, hfirst]; rfl)
  | cons capability others =>
    have hcapability : ((listedCapabilities value).any fun name => name.isText capability) = true := by
      rw [hlisted, hfirst]
      simp [JsValue.isText]
    have hpermits : restrictionsPermit (some r) capability (resourceFor copy) = true := by
      unfold restrictionsPermit
      dsimp only
      rw [capability_listed_iff h, hcapability, hrules, Bool.true_and, List.any_eq_true]
      exact ⟨copy, hcopy, matches_resourceFor copy⟩
    rw [hmeaning] at hpermits
    unfold writtenPermits at hpermits
    rw [hcapability, hvalue, Bool.true_and] at hpermits
    obtain ⟨outer, houter, hmatch⟩ := List.any_eq_true.mp hpermits
    obtain ⟨outerCopy, -, hcopied, -⟩ := exists_partner hcopies outer houter
    refine .inr ⟨outer, houter, narrows_of_matches ?_ (hcopied.matches_asWritten.mpr hmatch)⟩
    rw [hcopied.type_asWritten]
    rcases hcopied.type with ⟨-, hnone⟩ | ⟨s, hs, -, hsome⟩
    · rw [hnone]
      exact fun hcontra => (by cases hcontra)
    · rw [hsome]
      intro hcontra
      rw [Option.some.inj hcontra] at hs
      exact absurd hs (by decide)

/-- Each rule of a ceiling that is accepted as it is kept what it listed. -/
theorem kept_of_again (h : normalizeRestrictions localeCompare r.toJs = .ok r)
    {rules : List ApiKeyResourceRule} (hrules : r.resources = some rules) :
    ∀ rule ∈ rules, rule.attributes.isSome = true → rule.attributeEntries ≠ [] := by
  have hprop : r.toJs.prop "resources" = .arr (rules.map ApiKeyResourceRule.toJs) := by
    simp [ApiKeyRestrictions.toJs, JsValue.prop, List.lookup_cons, hrules]
  rcases normalizeResources_ok (normalizeRestrictions_ok h).2 with
    ⟨-, hnone⟩ | ⟨values, rules', hvalues, hsome, -, hall⟩
  · rw [hrules] at hnone
    cases hnone
  · rw [hrules] at hsome
    obtain rfl := Option.some.inj hsome
    rw [hprop] at hvalues
    obtain rfl := JsValue.arr.inj hvalues
    intro rule hrule
    obtain ⟨i, hagain⟩ := List.forall₂_same.mp (List.forall₂_map_left_iff.mp hall) rule hrule
    exact kept_of_normalizeRule hagain

/-- **A stored ceiling means what was written**, constrains by every rule and is accepted as
it is, exactly where no `__proto__` that was lost is missed. -/
theorem normalizeRestrictions_keeps_meaning [Std.TransCmp localeCompare]
    (hwf : value.isWellFormed = true) (h : normalizeRestrictions localeCompare value = .ok r) :
    KeepsMeaning localeCompare value r ↔ ProtoHarmless value := by
  constructor
  · intro hkeeps rule hrule hproto
    cases hrules : r.resources with
    | none =>
      rcases normalizeResources_ok (normalizeRestrictions_ok h).2 with ⟨hvalue, -⟩ | ⟨_, _, -, hsome, -⟩
      · unfold listedRules at hrule
        rw [hvalue] at hrule
        cases hrule
      · rw [hrules] at hsome
        cases hsome
    | some rules =>
      obtain ⟨-, hcopies⟩ := copies_of_normalized hwf h hrules
      obtain ⟨copy, hcopy, hcopied, -⟩ := exists_partner hcopies rule hrule
      have hlisted : listedAttributes rule ≠ [] := by
        intro hnone
        rw [hnone] at hproto
        cases hproto
      have hleft := kept_of_again hkeeps.again hrules copy hcopy (hcopied.present.mpr hlisted)
      obtain ⟨entry, hentry⟩ := List.exists_mem_of_ne_nil _ hleft
      obtain ⟨hname, hother⟩ := (hcopied.kept entry.1 entry.2).mp hentry
      refine ⟨⟨_, hother, hname⟩, ?_⟩
      rcases narrows_of_meaning hwf h hkeeps.meaning hrules hcopy with hnone | ⟨outer, houter, hnarrows⟩
      · exact .inl hnone
      · rw [hcopied.narrows] at hnarrows
        exact .inr ⟨outer, houter, hnarrows⟩
  · intro hharmless
    have hleft : ∀ rules, r.resources = some rules → ∀ copy ∈ rules, copy.attributes.isSome = true →
        copy.attributeEntries ≠ [] := by
      intro rules hrules copy hcopy
      obtain ⟨rule, hrule, hcopied, -⟩ :=
        exists_partner (copies_of_normalized hwf h hrules).2.flip copy hcopy
      exact attributes_left hcopied fun hproto => (hharmless rule hrule hproto).1
    refine ⟨meaning_of_harmless hwf h hharmless, ?_, normalizeRestrictions_toJs hwf h hleft⟩
    intro rules hrules copy hcopy
    obtain ⟨rule, -, -, i, hrule⟩ :=
      exists_partner (copies_of_normalized hwf h hrules).2.flip copy hcopy
    obtain ⟨_, -, -, -, -, -, hset⟩ := normalizeRule_eq_ok.mp hrule
    have hattributes := hleft rules hrules copy hcopy
    unfold ApiKeyResourceRule.constrains
    cases htype : copy.type with
    | some _ => rfl
    | none =>
      cases hid : copy.id with
      | some _ => rfl
      | none =>
        rw [htype, hid] at hset
        have hsome : copy.attributes.isSome = true := by simpa using hset
        simpa [List.isEmpty_iff] using hattributes hsome

end kept

/-- A ceiling that is for endpoints one principal created keeps its meaning. -/
theorem normalizeRestrictions_keeps_creator : ∃ value r,
    normalizeRestrictions compare value = .ok r ∧ KeepsMeaning compare value r := by
  let value : JsValue := .obj [("capabilities", .arr [.str "webhooks.remove"]),
    ("resources", .arr [.obj [("type", .str "webhook_endpoint"),
      ("attributes", .obj [("createdBy", .str "ann")])]])]
  let r : ApiKeyRestrictions := ⟨["webhooks.remove"],
    some [⟨some "webhook_endpoint", none, some ⟨[("createdBy", "ann")], by decide⟩⟩]⟩
  have h : normalizeRestrictions compare value = .ok r := by decide +kernel
  have hharmless : ProtoHarmless value := by decide +kernel
  exact ⟨value, r, h, (normalizeRestrictions_keeps_meaning (by decide +kernel) h).mpr hharmless⟩

/-- A ceiling for resources whose attribute `__proto__` is `orders` is stored as one for every
resource. -/
theorem normalizeRestrictions_loses_proto : ¬ ∀ value r, value.isWellFormed = true →
    normalizeRestrictions compare value = .ok r → KeepsMeaning compare value r := by
  intro hall
  let value : JsValue := .obj [("capabilities", .arr [.str "webhooks.emit"]),
    ("resources", .arr [.obj [("attributes", .obj [("__proto__", .str "orders")])]])]
  let r : ApiKeyRestrictions := ⟨["webhooks.emit"], some [⟨none, none, some .empty⟩]⟩
  have hkeeps : KeepsMeaning compare value r :=
    hall value r (by decide +kernel) (by decide +kernel)
  have hevent := hkeeps.meaning "webhooks.emit" ⟨"webhook_event", "acme", none, []⟩
  exact absurd hevent (by decide +kernel)

end ApiKeyRestrictions

end AppPort
