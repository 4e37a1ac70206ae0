import Mathlib.Data.List.Sort
import AppPort.Authority.Context
import AppPort.Authority.Manifest

/-!
# API-key restrictions

The most a key may ever be used for: capabilities of the manifest and, when there are
any, resource rules. `restrictionsPermit` decides one operation and `restrictionsWithin`
compares two ceilings; the second is sound for the first, and transitive, so a chain of
keys each within the one before permits no more than the first.
-/

namespace AppPort

def MAX_CAPABILITIES : Nat := 64
def MAX_RESOURCE_RULES : Nat := 64
def MAX_ATTRIBUTES : Nat := 16
def MAX_TEXT : Nat := 256

/-- `map.set(key, value)`: an entry that exists keeps its place. -/
def setEntry {α : Type} (entries : List (String × α)) (key : String) (value : α) :
    List (String × α) :=
  if entries.any fun entry => entry.1 == key then
    entries.map fun entry => if entry.1 = key then (key, value) else entry
  else entries ++ [(key, value)]

theorem setEntry_of_new {α : Type} {entries : List (String × α)} {key : String}
    (h : key ∉ entries.map Prod.fst) (value : α) :
    setEntry entries key value = entries ++ [(key, value)] := by
  unfold setEntry
  rw [if_neg]
  rw [List.any_eq_true]
  rintro ⟨entry, hentry, hkey⟩
  exact h (List.mem_map.mpr ⟨entry, hentry, eq_of_beq hkey⟩)

theorem setEntry_distinct {α : Type} {entries : List (String × α)}
    (h : (entries.map Prod.fst).Nodup) (key : String) (value : α) :
    ((setEntry entries key value).map Prod.fst).Nodup := by
  by_cases hkey : key ∈ entries.map Prod.fst
  · have hnames : (setEntry entries key value).map Prod.fst = entries.map Prod.fst := by
      obtain ⟨entry, hentry, hname⟩ := List.mem_map.mp hkey
      have hany : (entries.any fun entry => entry.1 == key) = true :=
        List.any_eq_true.mpr ⟨entry, hentry, beq_iff_eq.mpr hname⟩
      unfold setEntry
      rw [if_pos hany, List.map_map]
      refine List.map_congr_left fun e _ => ?_
      by_cases he : e.1 = key
      · simp [he]
      · simp [he]
    rw [hnames]
    exact h
  · rw [setEntry_of_new hkey, List.map_append]
    exact List.nodup_append.mpr ⟨h, List.nodup_singleton _, by
      intro a ha b hb
      simp only [List.map_cons, List.map_nil, List.mem_singleton] at hb
      rintro rfl
      exact hkey (hb ▸ ha)⟩

/-- An entry of a map, after `set`. -/
theorem mem_setEntry {α : Type} {entries : List (String × α)} {key : String} {value : α}
    {entry : String × α} (h : entry ∈ setEntry entries key value) :
    entry = (key, value) ∨ entry ∈ entries ∧ entry.1 ≠ key := by
  by_cases hkey : key ∈ entries.map Prod.fst
  · obtain ⟨old, hold, hname⟩ := List.mem_map.mp hkey
    have hany : (entries.any fun entry => entry.1 == key) = true :=
      List.any_eq_true.mpr ⟨old, hold, beq_iff_eq.mpr hname⟩
    unfold setEntry at h
    rw [if_pos hany] at h
    obtain ⟨before, hbefore, rfl⟩ := List.mem_map.mp h
    by_cases hentry : before.1 = key
    · rw [if_pos hentry]
      exact .inl rfl
    · rw [if_neg hentry]
      exact .inr ⟨hbefore, hentry⟩
  · rw [setEntry_of_new hkey] at h
    rcases List.mem_append.mp h with h | h
    · refine .inr ⟨h, fun hname => hkey ?_⟩
      exact List.mem_map.mpr ⟨entry, h, hname⟩
    · exact .inl (List.mem_singleton.mp h)

/-- The attributes of a rule: an object of strings. Its properties have distinct names. -/
structure RuleAttributes where
  entries : List (String × String)
  distinct : (entries.map Prod.fst).Nodup
  deriving DecidableEq, Repr

namespace RuleAttributes

/-- `{}`. -/
def empty : RuleAttributes := ⟨[], List.nodup_nil⟩

/-- `attributes[key]`, of a property the object has. -/
def get (attributes : RuleAttributes) (key : String) : Option String :=
  attributes.entries.lookup key

/-- The object with a property of its own set. -/
def set (attributes : RuleAttributes) (key value : String) : RuleAttributes :=
  ⟨setEntry attributes.entries key value, setEntry_distinct attributes.distinct key value⟩

/-- `attributes[key] = value`: under `__proto__` stands the setter every object inherits,
and it ignores a string. -/
def assign (attributes : RuleAttributes) (key value : String) : RuleAttributes :=
  if key = "__proto__" then attributes else attributes.set key value

end RuleAttributes

/-- A resource a key may be used against: every field that is set must equal the
requested resource's. -/
structure ApiKeyResourceRule where
  type : Option String := none
  id : Option String := none
  attributes : Option RuleAttributes := none
  deriving DecidableEq, Repr

/-- `Object.entries(rule.attributes ?? {})`. -/
def ApiKeyResourceRule.attributeEntries (rule : ApiKeyResourceRule) : List (String × String) :=
  match rule.attributes with
  | some attributes => attributes.entries
  | none => []

/-- `rule.attributes?.[key]`. -/
def ApiKeyResourceRule.attribute (rule : ApiKeyResourceRule) (key : String) : Option String :=
  rule.attributes.bind fun attributes => attributes.get key

structure ApiKeyRestrictions where
  capabilities : List String
  /-- When present, the requested resource must match at least one rule. -/
  resources : Option (List ApiKeyResourceRule) := none
  deriving DecidableEq, Repr

/-! ## Accepting a ceiling -/

namespace ApiKeyRestrictions

/-- The capabilities a ceiling may list. -/
def CAPABILITIES : List String := (ENTRIES.filter fun c => c.invocable).map fun c => c.name

/-- The resource types a rule may name. -/
def RESOURCE_TYPES : List String := ENTRIES.map fun c => c.resource

/-- `invalid(message)`. -/
def invalid (message : String) : JsError := serviceError .invalidRequest message

/-- `text(value, property)`. -/
def requiredText (value : JsValue) (property : String) : Except JsError String :=
  match value with
  | .str s =>
    if isBlank s || decide (jsLength s > MAX_TEXT) then
      .error (invalid (property ++ " must be a non-empty string of at most 256 characters"))
    else .ok s
  | _ => .error (invalid (property ++ " must be a non-empty string of at most 256 characters"))

/-- Refuse a field that is not one of `names`. -/
def onlyFields (names : List String) (describe : String → String) (fields : List (String × JsValue)) :
    Except JsError Unit :=
  match fields.find? fun f => !names.contains f.1 with
  | some f => .error (invalid (describe f.1 ++ " is not supported"))
  | none => .ok ()

/-- One attribute of a rule. -/
def normalizeAttribute (at_ : String) (entry : String × JsValue) : Except JsError (String × String) := do
  let key ← requiredText (.str entry.1) (at_ ++ ".attributes key")
  let value ← requiredText entry.2 (at_ ++ ".attributes." ++ entry.1)
  pure (key, value)

/-- The order in which the attributes of a rule are read. -/
def readBefore {α : Type} (localeCompare : String → String → Ordering) (a b : String × α) : Bool :=
  localeCompare a.1 b.1 != .gt

/-- The attributes of a rule, copied in order of their keys. -/
def normalizeAttributes (localeCompare : String → String → Ordering) (at_ : String) :
    JsValue → Except JsError (Option RuleAttributes)
  | .undefined => .ok none
  | .obj entries =>
    if entries.length > MAX_ATTRIBUTES then
      .error (invalid (at_ ++ ".attributes allows at most 16 entries"))
    else do
      let checked ← (entries.mergeSort (readBefore localeCompare)).mapM (normalizeAttribute at_)
      pure (if entries.isEmpty then none
        else some (checked.foldl (fun attributes entry => attributes.assign entry.1 entry.2) .empty))
  | _ => .error (invalid (at_ ++ ".attributes must be an object of strings"))

/-- The resource type of a rule. -/
def normalizeType (at_ : String) : JsValue → Except JsError (Option String)
  | .undefined => .ok none
  | value =>
    if RESOURCE_TYPES.any value.isText then .ok value.text?
    else .error (invalid (at_ ++ ".type: \"" ++ value.toText ++
      "\" is not a resource type in the service manifest"))

/-- The resource id of a rule. -/
def normalizeId (at_ : String) : JsValue → Except JsError (Option String)
  | .undefined => .ok none
  | value => (requiredText value (at_ ++ ".id")).map some

/-- `normalizeRule`. -/
def normalizeRule (localeCompare : String → String → Ordering) (index : Nat) (value : JsValue) :
    Except JsError ApiKeyResourceRule :=
  let at_ := "restrictions.resources[" ++ toString index ++ "]"
  match value with
  | .obj fields => do
    onlyFields ["type", "id", "attributes"] (fun name => at_ ++ "." ++ name) fields
    let type ← normalizeType at_ (value.prop "type")
    let id ← normalizeId at_ (value.prop "id")
    let attributes ← normalizeAttributes localeCompare at_ (value.prop "attributes")
    if type.isNone && id.isNone && attributes.isNone then
      throw (invalid (at_ ++ " must set at least one of type, id, or attributes"))
    else pure { type, id, attributes }
  | _ => .error (invalid (at_ ++ " must be an object"))

/-- The rules of a ceiling, in order. -/
def normalizeRules (localeCompare : String → String → Ordering) :
    Nat → List JsValue → Except JsError (List ApiKeyResourceRule)
  | _, [] => pure []
  | index, value :: rest => do
    let rule ← normalizeRule localeCompare index value
    let rules ← normalizeRules localeCompare (index + 1) rest
    pure (rule :: rules)

/-- One listed capability. -/
def normalizeCapability (value : JsValue) : Except JsError String :=
  match CAPABILITIES.find? value.isText with
  | some name => .ok name
  | none => .error (invalid ("restrictions.capabilities: \"" ++ value.toText ++
      "\" is not an invocable capability in the service manifest"))

/-- The capabilities of a ceiling, sorted, without repetitions. -/
def normalizeCapabilities : JsValue → Except JsError (List String)
  | .arr names =>
    if names.length > MAX_CAPABILITIES then
      .error (invalid "restrictions.capabilities allows at most 64 entries")
    else (names.mapM normalizeCapability).map fun names =>
      (distinct names).mergeSort fun a b => decide (a ≤ b)
  | _ => .error (invalid "restrictions.capabilities must be an array of capability names")

/-- The resource rules of a ceiling, when it has any. -/
def normalizeResources (localeCompare : String → String → Ordering) :
    JsValue → Except JsError (Option (List ApiKeyResourceRule))
  | .undefined => .ok none
  | .arr values =>
    if values.length > MAX_RESOURCE_RULES then
      .error (invalid "restrictions.resources allows at most 64 rules")
    else (normalizeRules localeCompare 0 values).map some
  | _ => .error (invalid "restrictions.resources must be an array of resource rules")

/-- `normalizeRestrictions`: unknown names are refused, not ignored. -/
def normalizeRestrictions (localeCompare : String → String → Ordering) (value : JsValue) :
    Except JsError ApiKeyRestrictions :=
  match value with
  | .obj fields => do
    onlyFields ["capabilities", "resources"] (fun name => "restrictions." ++ name) fields
    let capabilities ← normalizeCapabilities (value.prop "capabilities")
    let resources ← normalizeResources localeCompare (value.prop "resources")
    pure { capabilities, resources }
  | _ => .error (invalid "restrictions must be an object")

end ApiKeyRestrictions

/-! ## Deciding an operation -/

/-- A field of a rule that is set must equal the resource's. -/
def agrees (rule value : Option String) : Bool :=
  match rule with
  | none => true
  | some _ => rule == value

/-- `ruleMatches`. -/
def ruleMatches (rule : ApiKeyResourceRule) (resource : ServiceResource) : Bool :=
  agrees rule.type (some resource.type) && agrees rule.id resource.id &&
    rule.attributeEntries.all fun entry => resource.attribute entry.1 == some entry.2

/-- `restrictionsPermit`: no ceiling, or the capability is listed and, if rules exist,
one matches. -/
def restrictionsPermit (restrictions : Option ApiKeyRestrictions) (capability : String)
    (resource : ServiceResource) : Bool :=
  match restrictions with
  | none => true
  | some r => r.capabilities.contains capability &&
      match r.resources with
      | none => true
      | some rules => rules.any fun rule => ruleMatches rule resource

/-! ## Comparing ceilings -/

/-- `ruleNarrows`. -/
def ruleNarrows (inner outer : ApiKeyResourceRule) : Bool :=
  agrees outer.type inner.type && agrees outer.id inner.id &&
    outer.attributeEntries.all fun entry => inner.attribute entry.1 == some entry.2

/-- `restrictionsWithin`. -/
def restrictionsWithin (child parent : Option ApiKeyRestrictions) : Bool :=
  match parent, child with
  | none, _ => true
  | some _, none => false
  | some p, some c => c.capabilities.all (fun capability => p.capabilities.contains capability) &&
      match p.resources, c.resources with
      | none, _ => true
      | some _, none => false
      | some outers, some rules => rules.all fun rule => outers.any fun outer => ruleNarrows rule outer

theorem agrees_iff {rule value : Option String} :
    agrees rule value = true ↔ ∀ s, rule = some s → value = some s := by
  cases rule with
  | none => exact ⟨fun _ s hs => (by cases hs), fun _ => rfl⟩
  | some s =>
    have hagrees : agrees (some s) value = (some s == value) := rfl
    rw [hagrees, beq_iff_eq]
    constructor
    · rintro rfl t ht
      exact ht
    · intro h
      exact (h s rfl).symm

theorem agrees_trans {a b c : Option String} (hab : agrees a b = true) (hbc : agrees b c = true) :
    agrees a c = true := by
  rw [agrees_iff] at hab hbc ⊢
  intro s hs
  exact hbc s (hab s hs)

theorem mem_of_lookup_eq {α β : Type} [BEq α] [LawfulBEq α] {a : α} {b : β} :
    {l : List (α × β)} → l.lookup a = some b → (a, b) ∈ l
  | [], h => by cases h
  | (x, y) :: l, h => by
    rw [List.lookup_cons] at h
    cases hx : a == x with
    | true =>
      rw [hx] at h
      obtain rfl := eq_of_beq hx
      obtain rfl := Option.some.inj h
      exact List.mem_cons_self
    | false =>
      rw [hx] at h
      exact List.mem_cons_of_mem _ (mem_of_lookup_eq h)

/-- Of distinct names, every one leads to its entry. -/
theorem lookup_of_mem {α β : Type} [BEq α] [LawfulBEq α] {a : α} {b : β} {l : List (α × β)}
    (hd : (l.map Prod.fst).Nodup) (h : (a, b) ∈ l) : l.lookup a = some b := by
  induction l with
  | nil => cases h
  | cons e l ih =>
    obtain ⟨hnew, hd'⟩ := List.nodup_cons.mp hd
    rw [List.lookup_cons]
    rcases List.mem_cons.mp h with rfl | h
    · rw [beq_self_eq_true]
    · have hne : (a == e.1) = false := by
        refine beq_eq_false_iff_ne.mpr ?_
        rintro rfl
        exact hnew (List.mem_map.mpr ⟨(e.1, b), h, rfl⟩)
      rw [hne]
      exact ih hd' h

theorem ApiKeyResourceRule.attribute_eq_some {rule : ApiKeyResourceRule} {key value : String} :
    rule.attribute key = some value ↔ (key, value) ∈ rule.attributeEntries := by
  unfold ApiKeyResourceRule.attribute ApiKeyResourceRule.attributeEntries
  cases rule.attributes with
  | none => exact ⟨fun h => (by cases h), fun h => (by cases h)⟩
  | some attributes => exact ⟨mem_of_lookup_eq, lookup_of_mem attributes.distinct⟩

/-- A narrower rule matches no more. -/
theorem ruleMatches_of_narrows {inner outer : ApiKeyResourceRule} {resource : ServiceResource}
    (hn : ruleNarrows inner outer = true) (hm : ruleMatches inner resource = true) :
    ruleMatches outer resource = true := by
  simp only [ruleNarrows, ruleMatches, Bool.and_eq_true, List.all_eq_true, beq_iff_eq] at hn hm ⊢
  obtain ⟨⟨htype, hid⟩, hattrs⟩ := hn
  obtain ⟨⟨htype', hid'⟩, hattrs'⟩ := hm
  refine ⟨⟨agrees_trans htype htype', agrees_trans hid hid'⟩, fun entry hentry => ?_⟩
  exact hattrs' _ (ApiKeyResourceRule.attribute_eq_some.mp (hattrs entry hentry))

theorem ruleNarrows_refl (rule : ApiKeyResourceRule) : ruleNarrows rule rule = true := by
  simp only [ruleNarrows, Bool.and_eq_true, List.all_eq_true, beq_iff_eq, agrees_iff]
  exact ⟨⟨fun _ h => h, fun _ h => h⟩,
    fun _ hentry => ApiKeyResourceRule.attribute_eq_some.mpr hentry⟩

theorem ruleNarrows_trans {a b c : ApiKeyResourceRule} (hab : ruleNarrows a b = true)
    (hbc : ruleNarrows b c = true) : ruleNarrows a c = true := by
  simp only [ruleNarrows, Bool.and_eq_true, List.all_eq_true, beq_iff_eq] at hab hbc ⊢
  obtain ⟨⟨htype, hid⟩, hattrs⟩ := hab
  obtain ⟨⟨htype', hid'⟩, hattrs'⟩ := hbc
  refine ⟨⟨agrees_trans htype' htype, agrees_trans hid' hid⟩, fun entry hentry => ?_⟩
  exact hattrs _ (ApiKeyResourceRule.attribute_eq_some.mp (hattrs' entry hentry))

/-- **A ceiling within another permits no more.** -/
theorem restrictionsPermit_of_within {child parent : Option ApiKeyRestrictions} {capability : String}
    {resource : ServiceResource} (hw : restrictionsWithin child parent = true)
    (hp : restrictionsPermit child capability resource = true) :
    restrictionsPermit parent capability resource = true := by
  cases parent with
  | none => rfl
  | some p =>
    cases child with
    | none => cases hw
    | some c =>
      simp only [restrictionsWithin, Bool.and_eq_true, List.all_eq_true] at hw
      simp only [restrictionsPermit, Bool.and_eq_true] at hp ⊢
      obtain ⟨hcaps, hrules⟩ := hw
      obtain ⟨hcap, hrule⟩ := hp
      refine ⟨hcaps capability (List.contains_iff_mem.mp hcap), ?_⟩
      cases hpr : p.resources with
      | none => rfl
      | some outers =>
        rw [hpr] at hrules
        cases hcr : c.resources with
        | none =>
          rw [hcr] at hrules
          cases hrules
        | some rules =>
          rw [hcr] at hrules hrule
          simp only [List.all_eq_true, List.any_eq_true] at hrules hrule ⊢
          obtain ⟨rule, hmem, hmatch⟩ := hrule
          obtain ⟨outer, houter, hnarrow⟩ := hrules rule hmem
          exact ⟨outer, houter, ruleMatches_of_narrows hnarrow hmatch⟩

/-- A ceiling is within itself. -/
theorem restrictionsWithin_refl (c : Option ApiKeyRestrictions) : restrictionsWithin c c = true := by
  cases c with
  | none => rfl
  | some c =>
    simp only [restrictionsWithin, Bool.and_eq_true, List.all_eq_true]
    refine ⟨fun cap hcap => List.contains_iff_mem.mpr hcap, ?_⟩
    cases c.resources with
    | none => rfl
    | some rules =>
      simp only [List.all_eq_true, List.any_eq_true]
      exact fun rule hrule => ⟨rule, hrule, ruleNarrows_refl rule⟩

/-- **Ceilings compose.** -/
theorem restrictionsWithin_trans {a b c : Option ApiKeyRestrictions}
    (hab : restrictionsWithin a b = true) (hbc : restrictionsWithin b c = true) :
    restrictionsWithin a c = true := by
  cases c with
  | none => rfl
  | some c =>
    cases b with
    | none => cases hbc
    | some b =>
      cases a with
      | none => cases hab
      | some a =>
        simp only [restrictionsWithin, Bool.and_eq_true, List.all_eq_true] at hab hbc ⊢
        obtain ⟨hcaps, hrules⟩ := hab
        obtain ⟨hcaps', hrules'⟩ := hbc
        refine ⟨fun cap hcap => hcaps' cap (List.contains_iff_mem.mp (hcaps cap hcap)), ?_⟩
        cases hcr : c.resources with
        | none => rfl
        | some outers =>
          rw [hcr] at hrules'
          cases hbr : b.resources with
          | none =>
            rw [hbr] at hrules'
            cases hrules'
          | some middles =>
            rw [hbr] at hrules hrules'
            cases har : a.resources with
            | none =>
              rw [har] at hrules
              cases hrules
            | some rules =>
              rw [har] at hrules
              simp only [List.all_eq_true, List.any_eq_true] at hrules hrules' ⊢
              intro rule hrule
              obtain ⟨middle, hmiddle, hnarrow⟩ := hrules rule hrule
              obtain ⟨outer, houter, hnarrow'⟩ := hrules' middle hmiddle
              exact ⟨outer, houter, ruleNarrows_trans hnarrow hnarrow'⟩

/-- A chain of ceilings, each within the one after it, ends no narrower than it starts. -/
theorem restrictionsWithin_of_chain {c : Option ApiKeyRestrictions} :
    {chain : List (Option ApiKeyRestrictions)} →
    List.IsChain (fun child parent => restrictionsWithin child parent = true) (c :: chain) →
    restrictionsWithin c ((c :: chain).getLast (List.cons_ne_nil c chain)) = true
  | [], _ => restrictionsWithin_refl c
  | parent :: chain, h => by
    obtain ⟨hstep, hrest⟩ := List.isChain_cons_cons.mp h
    rw [List.getLast_cons (List.cons_ne_nil parent chain)]
    exact restrictionsWithin_trans hstep (restrictionsWithin_of_chain hrest)

/-- **`restrictionsWithin` is a preorder that `restrictionsPermit` follows**, along a chain of
narrowings of any length. -/
theorem restrictionsWithin_sound_preorder :
    (∀ c p, restrictionsWithin c p = true → ∀ capability resource,
      restrictionsPermit c capability resource = true →
      restrictionsPermit p capability resource = true) ∧
    (∀ c, restrictionsWithin c c = true) ∧
    (∀ a b c, restrictionsWithin a b = true → restrictionsWithin b c = true →
      restrictionsWithin a c = true) ∧
    ∀ c chain, List.IsChain (fun child parent => restrictionsWithin child parent = true) (c :: chain) →
      ∀ capability resource, restrictionsPermit c capability resource = true →
        restrictionsPermit ((c :: chain).getLast (List.cons_ne_nil c chain)) capability resource =
          true := by
  refine ⟨?_, restrictionsWithin_refl, ?_, ?_⟩
  · intro c p hw capability resource
    exact restrictionsPermit_of_within hw
  · intro a b c
    exact restrictionsWithin_trans
  · intro c chain hchain capability resource
    exact restrictionsPermit_of_within (restrictionsWithin_of_chain hchain)

end AppPort
