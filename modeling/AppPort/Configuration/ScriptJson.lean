import AppPort.Authority.Basic
import AppPort.Lib.JsonParse

/-!
# The description in a management page

A management page carries its description as JSON in a `script` element. `scriptJson`
replaces `<` and the two line separators in the text of `JSON.stringify` by their escapes.
These units occur in such a text only where they stand for themselves in a string, so that
the replacement is another way of writing strings, and reads back like the first.
-/

namespace AppPort

open Effects

/-- `text.replace(/c/g, replacement)`, for one unit. -/
def replaceUnit (c : Nat) (replacement : Units) (text : Units) : Units :=
  text.flatMap fun u => if u = c then replacement else [u]

/-- What becomes of one unit under the three replacements. -/
def guardUnit (u : Nat) : Units :=
  if u = 60 ∨ u = 0x2028 ∨ u = 0x2029 then unicodeEscape u else [u]

section scriptJson

variable {ν : Type} [JsonNumber ν]

/-- `scriptJson`. -/
def scriptJson (value : Json ν) : Units :=
  replaceUnit 0x2029 (jsUnits "\\u2029")
    (replaceUnit 0x2028 (jsUnits "\\u2028")
      (replaceUnit 60 (jsUnits "\\u003c") value.stringify))

/-! ## The replacements as a rule for strings -/

theorem replacements_eq (text : Units) :
    replaceUnit 0x2029 (jsUnits "\\u2029") (replaceUnit 0x2028 (jsUnits "\\u2028")
      (replaceUnit 60 (jsUnits "\\u003c") text)) = text.flatMap guardUnit := by
  unfold replaceUnit
  rw [List.flatMap_assoc, List.flatMap_assoc]
  congr 1
  funext u
  unfold guardUnit
  by_cases hless : u = 60
  · subst hless
    decide
  by_cases hline : u = 0x2028
  · subst hline
    decide
  by_cases hparagraph : u = 0x2029
  · subst hparagraph
    decide
  · simp [hless, hline, hparagraph]

theorem guardUnit_plain {u : Nat} (h : u ≠ 60 ∧ u ≠ 0x2028 ∧ u ≠ 0x2029) : guardUnit u = [u] := by
  unfold guardUnit
  rw [if_neg (by omega)]

theorem guarded_plain {text : Units} (h : ∀ u ∈ text, u ≠ 60 ∧ u ≠ 0x2028 ∧ u ≠ 0x2029) :
    text.flatMap guardUnit = text := by
  induction text with
  | nil => rfl
  | cons u text ih =>
    rw [List.flatMap_cons, guardUnit_plain (h u List.mem_cons_self),
      ih (fun v hv => h v (List.mem_cons_of_mem _ hv))]
    rfl

/-- An escape is written in letters and digits. -/
theorem unicodeEscape_units {c : Nat} (h : c < 65536) :
    ∀ u ∈ unicodeEscape c, u ≠ 60 ∧ u ≠ 0x2028 ∧ u ≠ 0x2029 := by
  have hhex : ∀ n, n < 16 → hexUnit n ≠ 60 ∧ hexUnit n ≠ 0x2028 ∧ hexUnit n ≠ 0x2029 := by
    intro n hn
    unfold hexUnit
    split <;> omega
  intro u hu
  simp only [unicodeEscape, List.mem_cons, List.not_mem_nil, or_false] at hu
  rcases hu with rfl | rfl | rfl | rfl | rfl | rfl
  · decide
  · decide
  · exact hhex _ (by omega)
  · exact hhex _ (by omega)
  · exact hhex _ (by omega)
  · exact hhex _ (by omega)

/-- No unit is left as it was that should not be. -/
theorem guardUnit_units (u : Nat) : ∀ w ∈ guardUnit u, w ≠ 60 ∧ w ≠ 0x2028 ∧ w ≠ 0x2029 := by
  unfold guardUnit
  split
  · next h => exact unicodeEscape_units (by omega)
  · next h =>
    intro w hw
    rw [List.mem_singleton.mp hw]
    omega

/-- **The rule is read back**: a guarded unit is its own escape, and the other escapes hold
nothing to guard. -/
theorem readsBack_guarded : ReadsBack fun c => (escapeUnit c).flatMap guardUnit := by
  intro c rest
  by_cases hguard : c = 60 ∨ c = 0x2028 ∨ c = 0x2029
  · have hplain : escapeUnit c = [c] := by
      rcases hguard with rfl | rfl | rfl <;> decide
    have hescape : (escapeUnit c).flatMap guardUnit = unicodeEscape c := by
      rw [hplain]
      simp [guardUnit, hguard]
    show readUnits ((escapeUnit c).flatMap guardUnit ++ rest) = _
    rw [hescape]
    exact readUnits_unicodeEscape (by omega) rest
  · have hunits : ∀ u ∈ escapeUnit c, u ≠ 60 ∧ u ≠ 0x2028 ∧ u ≠ 0x2029 := by
      unfold escapeUnit
      repeat' split
      all_goals try
        intro u hu
        simp only [List.mem_cons, List.not_mem_nil, or_false] at hu
        omega
      next h =>
        apply unicodeEscape_units
        simp only [isHighSurrogate, isLowSurrogate, Bool.and_eq_true, decide_eq_true_eq] at h
        omega
    show readUnits ((escapeUnit c).flatMap guardUnit ++ rest) = _
    rw [guarded_plain hunits]
    exact readsBack_escapeUnit c rest

theorem escapeUnits_guarded (s : Units) : (escapeUnits escapeUnit s).flatMap guardUnit =
    escapeUnits (fun c => (escapeUnit c).flatMap guardUnit) s := by
  induction s using escapeUnits.induct with
  | case1 => rfl
  | case2 c => rfl
  | case3 c d rest hpair ih =>
    rw [escapeUnits, if_pos hpair, escapeUnits, if_pos hpair, List.flatMap_cons, List.flatMap_cons,
      ih]
    simp only [isHighSurrogate, isLowSurrogate, Bool.and_eq_true, decide_eq_true_eq] at hpair
    rw [guardUnit_plain (by omega), guardUnit_plain (by omega)]
    rfl
  | case4 c d rest hpair ih =>
    rw [escapeUnits, if_neg hpair, escapeUnits, if_neg hpair, List.flatMap_append, ih]

theorem quoteUnits_guarded (s : Units) : (quoteUnits escapeUnit s).flatMap guardUnit =
    quoteUnits (fun c => (escapeUnit c).flatMap guardUnit) s := by
  rw [quoteUnits, quoteUnits, List.flatMap_cons, List.flatMap_append, escapeUnits_guarded]
  rfl

/-- Outside strings a text has nothing to guard. -/
theorem text_guarded (v : Json ν) : (v.text escapeUnit).flatMap guardUnit =
    v.text fun c => (escapeUnit c).flatMap guardUnit := by
  induction v using Json.induct with
  | null => rfl
  | bool b => cases b <;> rfl
  | num x =>
    apply guarded_plain
    intro u hu
    have hnumeric := JsonNumber.numeric x u hu
    simp only [isNumericUnit, isDigitUnit, Bool.or_eq_true, Bool.and_eq_true, decide_eq_true_eq,
      beq_iff_eq] at hnumeric
    omega
  | str s => exact quoteUnits_guarded s
  | arr items ih =>
    have hitems : (Json.itemsText escapeUnit items).flatMap guardUnit =
        Json.itemsText (fun c => (escapeUnit c).flatMap guardUnit) items := by
      induction items with
      | nil => rfl
      | cons v rest ihrest =>
        have hv := ih v List.mem_cons_self
        have hrest := ihrest fun w hw => ih w (List.mem_cons_of_mem _ hw)
        cases rest with
        | nil =>
          rw [Json.itemsText, Json.itemsText, List.flatMap_append, hv]
          rfl
        | cons w rest =>
          rw [Json.itemsText, Json.itemsText, List.flatMap_append, List.flatMap_cons, hv, hrest]
          rfl
    rw [Json.text, Json.text, List.flatMap_cons, hitems]
    rfl
  | obj entries ih =>
    have hentries : (Json.entriesText escapeUnit entries).flatMap guardUnit =
        Json.entriesText (fun c => (escapeUnit c).flatMap guardUnit) entries := by
      induction entries with
      | nil => rfl
      | cons e rest ihrest =>
        rcases e with ⟨key, v⟩
        have hv := ih (key, v) List.mem_cons_self
        have hrest := ihrest fun w hw => ih w (List.mem_cons_of_mem _ hw)
        cases rest with
        | nil =>
          rw [Json.entriesText, Json.entriesText, List.flatMap_append, List.flatMap_cons,
            List.flatMap_append, quoteUnits_guarded, hv]
          rfl
        | cons e rest =>
          rw [Json.entriesText, Json.entriesText, List.flatMap_append, List.flatMap_cons,
            List.flatMap_append, List.flatMap_cons, quoteUnits_guarded, hv, hrest]
          rfl
    rw [Json.text, Json.text, List.flatMap_cons, hentries]
    rfl

/-- `scriptJson` writes a value with its strings guarded. -/
theorem scriptJson_eq (v : Json ν) :
    scriptJson v = v.text fun c => (escapeUnit c).flatMap guardUnit := by
  rw [scriptJson, replacements_eq, Json.stringify, text_guarded]

theorem scriptJson_units (v : Json ν) :
    ∀ u ∈ scriptJson v, u ≠ 60 ∧ u ≠ 0x2028 ∧ u ≠ 0x2029 := by
  intro u hu
  rw [scriptJson, replacements_eq] at hu
  obtain ⟨w, -, hw⟩ := List.mem_flatMap.mp hu
  exact guardUnit_units w u hw

theorem parseJson_scriptJson (v : JsonValue ν) : parseJson (scriptJson v.json) = some v.json := by
  rw [scriptJson_eq]
  exact parseJson_text readsBack_guarded v.wellFormed

end scriptJson

/-! ## The page -/

section page

variable {ν : Type}

/-- `DESCRIPTIONS`. -/
def DESCRIPTIONS : List (String × String) := [
  ("api-keys", "Application caller identities. AuthBoundry authorizes what they may do."),
  ("webhooks", "Register durable event endpoints."),
  ("jobs", "Queue durable work and retry failed records."),
  ("schedules", "Create recurring work using plain English intervals."),
  ("notifications", "Create and manage durable notifications."),
  ("files", "Create and update durable file metadata."),
  ("configuration", "Variables and secret references for each environment."),
  ("intelligence", "Provider, model, endpoint and credential for AI features. Optional."),
  ("secrets", "Provider-neutral secret metadata.")]

/-- What an extension says about its page. -/
structure PageExtension where
  description : Units
  script : Units

structure UiPage (ν : Type) where
  id : Units
  title : Units
  route : Units
  order : ν
  extension : Option PageExtension := none

/-- An object literal, its keys as the source writes them. -/
def objectOf (entries : List (String × Json ν)) : Json ν :=
  .obj (fromEntries (entries.map fun e => (jsUnits e.1, e.2)))

/-- An entry of `navigation`. -/
def navigationEntry (page : UiPage ν) : Json ν :=
  objectOf [("id", .str page.id), ("label", .str page.title), ("route", .str page.route),
    ("order", .num page.order)]

/-- `{ ...DESCRIPTIONS, ...extensionDescriptions }`. -/
def pageDescriptions (pages : List (UiPage ν)) : Json ν :=
  .obj (fromEntries (DESCRIPTIONS.map (fun e => (jsUnits e.1, .str (jsUnits e.2))) ++
    fromEntries (pages.filterMap fun page =>
      page.extension.map fun extension => (page.id, .str extension.description))))

/-- The description a page carries; `basePath` is the normalized one. -/
def describePage (page : UiPage ν) (pages : List (UiPage ν)) (basePath : Units) : Json ν :=
  objectOf ([("page", .str page.id)] ++
    (if basePath = [] then [] else [("basePath", .str basePath)]) ++
    [("navigation", .arr (pages.map navigationEntry)), ("descriptions", pageDescriptions pages)])

/-- `escapeText`. -/
def escapeText (text : Units) : Units :=
  text.flatMap fun u =>
    if u = 38 then jsUnits "&amp;"
    else if u = 60 then jsUnits "&lt;"
    else if u = 62 then jsUnits "&gt;"
    else if u = 34 then jsUnits "&quot;"
    else [u]

/-- The packaged assets. -/
structure PageAssets where
  style : Units
  designSystem : Units
  page : Units

/-- The title of a page's document. -/
def documentTitle (page : UiPage ν) : Units :=
  if page.id = jsUnits "overview" then jsUnits "AppPort Services"
  else jsUnits "AppPort Services · " ++ page.title

/-- The page up to the text of its data element. -/
def pageBefore (assets : PageAssets) (page : UiPage ν) : Units :=
  jsUnits "<!doctype html><html lang=\"en\"><head><meta charset=\"utf-8\">" ++
  jsUnits "<meta name=\"viewport\" content=\"width=device-width, initial-scale=1\">" ++
  jsUnits "<title>" ++ escapeText (documentTitle page) ++ jsUnits "</title><style>" ++ assets.style ++
  jsUnits "</style></head><body><noscript><p class=\"appport-noscript\">The " ++
  escapeText page.title ++ jsUnits " page needs JavaScript.</p></noscript>" ++
  jsUnits "<script type=\"application/json\" id=\"appport-page\">"

/-- The page after its data element. -/
def pageAfter (assets : PageAssets) (page : UiPage ν) : Units :=
  jsUnits "<script>" ++ assets.designSystem ++ jsUnits "</script>" ++
  (match page.extension with
    | some extension => jsUnits "<script>" ++ extension.script ++ jsUnits "</script>"
    | none => []) ++
  jsUnits "<script>" ++ assets.page ++ jsUnits "</script></body></html>"

theorem objectOf_wellFormed {entries : List (String × Json ν)}
    (h : ∀ e ∈ entries, e.2.WellFormed) : (objectOf entries).WellFormed := by
  constructor
  · exact ownOrder_fromEntries _
  · intro e he
    obtain ⟨e', he', heq⟩ := List.mem_map.mp (mem_fromEntries he)
    rw [← heq]
    exact h e' he'

theorem navigationEntry_wellFormed (page : UiPage ν) : (navigationEntry page).WellFormed := by
  apply objectOf_wellFormed
  intro e he
  simp only [List.mem_cons, List.not_mem_nil, or_false] at he
  rcases he with rfl | rfl | rfl | rfl
  · exact .str _
  · exact .str _
  · exact .str _
  · exact .num _

theorem pageDescriptions_wellFormed (pages : List (UiPage ν)) :
    (pageDescriptions pages).WellFormed := by
  constructor
  · exact ownOrder_fromEntries _
  · intro e he
    rcases List.mem_append.mp (mem_fromEntries he) with hbuilt | hextension
    · obtain ⟨d, -, heq⟩ := List.mem_map.mp hbuilt
      rw [← heq]
      exact .str _
    · obtain ⟨page, -, hpage⟩ := List.mem_filterMap.mp (mem_fromEntries hextension)
      obtain ⟨extension, -, heq⟩ := Option.map_eq_some_iff.mp hpage
      rw [← heq]
      exact .str _

/-- A description is a value that can be written and read. -/
theorem describePage_wellFormed (page : UiPage ν) (pages : List (UiPage ν)) (basePath : Units) :
    (describePage page pages basePath).WellFormed := by
  apply objectOf_wellFormed
  intro e he
  rcases List.mem_append.mp he with hhead | htail
  · rcases List.mem_append.mp hhead with hpage | hbase
    · rw [List.mem_singleton.mp hpage]
      exact .str _
    · split at hbase
      · cases hbase
      · rw [List.mem_singleton.mp hbase]
        exact .str _
  · simp only [List.mem_cons, List.not_mem_nil, or_false] at htail
    rcases htail with rfl | rfl
    · constructor
      intro v hv
      obtain ⟨p, -, heq⟩ := List.mem_map.mp hv
      rw [← heq]
      exact navigationEntry_wellFormed p
    · exact pageDescriptions_wellFormed pages

/-- The description a page carries. -/
def pageDescription (page : UiPage ν) (pages : List (UiPage ν)) (basePath : Units) : JsonValue ν :=
  ⟨describePage page pages basePath, describePage_wellFormed page pages basePath⟩

variable [JsonNumber ν]

/-- `renderManagementPage`. -/
def renderManagementPage (assets : PageAssets) (page : UiPage ν) (pages : List (UiPage ν))
    (basePath : Units) : Units :=
  pageBefore assets page ++ scriptJson (pageDescription page pages basePath).json ++
    jsUnits "</script>" ++ pageAfter assets page

/-- **The description arrives as it was rendered.** The text of every JSON value holds no
`<` and no line separator and is parsed to the value. In a page, the first `<` after the
opening tag of the data element begins its closing tag, and what stands before it is
parsed to the description. -/
theorem scriptJson_arrives (v : JsonValue ν) (assets : PageAssets) (page : UiPage ν)
    (pages : List (UiPage ν)) (basePath : Units) :
    (∀ u ∈ scriptJson v.json, u ≠ 60 ∧ u ≠ 0x2028 ∧ u ≠ 0x2029) ∧
      parseJson (scriptJson v.json) = some v.json ∧
      ∃ rest, renderManagementPage assets page pages basePath = pageBefore assets page ++ rest ∧
        parseJson (rest.takeWhile (· ≠ 60)) = some (describePage page pages basePath) ∧
        rest.dropWhile (· ≠ 60) = jsUnits "</script>" ++ pageAfter assets page := by
  constructor
  · exact scriptJson_units v.json
  constructor
  · exact parseJson_scriptJson v
  set description := pageDescription page pages basePath with hdescription
  have hdata : ∀ u ∈ scriptJson description.json, decide (u ≠ 60) = true := by
    intro u hu
    exact decide_eq_true (scriptJson_units description.json u hu).1
  have hclose : ∃ tail, jsUnits "</script>" ++ pageAfter assets page = 60 :: tail := ⟨_, rfl⟩
  obtain ⟨tail, htail⟩ := hclose
  refine ⟨scriptJson description.json ++ (jsUnits "</script>" ++ pageAfter assets page), ?_, ?_, ?_⟩
  · simp only [renderManagementPage, hdescription, List.append_assoc]
  · rw [List.takeWhile_append_of_pos hdata, htail, List.takeWhile_cons_of_neg (by decide),
      List.append_nil]
    exact parseJson_scriptJson description
  · rw [List.dropWhile_append_of_pos hdata, htail, List.dropWhile_cons_of_neg (by decide)]

end page

end AppPort
