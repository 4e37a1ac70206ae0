import AppPort.Contract.Template

/-!
# Migrating a contract

`config migrate` reads `appport.toml` and writes it anew. What it writes is a template with
the name of the application and its capabilities in it, so that of everything else only
what the template happens to say is kept.
-/

namespace AppPort

open Toml

/-! ## The name of the application -/

/-- `name.replace(/^@[^/]+\//, '')`. -/
def withoutScope (name : List Char) : List Char :=
  match name with
  | '@' :: rest =>
    match rest.dropWhile (· != '/') with
    | '/' :: unscoped => if rest.takeWhile (· != '/') = [] then name else unscoped
    | _ => name
  | _ => name

/-- `name.replace(/[^a-z0-9_-]+/g, '-')`; the flag says that a run is being replaced. -/
def replaceRuns : Bool → List Char → List Char
  | _, [] => []
  | inRun, c :: rest =>
    if isUseChar c then c :: replaceRuns false rest
    else if inRun then replaceRuns true rest
    else '-' :: replaceRuns true rest

/-- `name.replace(/^-+|-+$/g, '')`. -/
def withoutDashes (name : List Char) : List Char :=
  ((name.dropWhile (· == '-')).reverse.dropWhile (· == '-')).reverse

/-- `detectFlowApplicationName`: from the manifest, if it has a name, or the directory's
name; `toLowerCase` is the string method. -/
def detectFlowApplicationName (toLowerCase : String → String) (directory : String)
    (manifest : Option JsValue) : String :=
  let candidate :=
    match manifest.map fun m => m.prop "name" with
    | some (.str name) => if isBlank name then directory else String.ofList (withoutScope name.toList)
    | _ => directory
  let name := withoutDashes (replaceRuns false (toLowerCase candidate).toList)
  if name.isEmpty then "app" else String.ofList name

/-- The file `handleConfigMigrate` writes for a contract. -/
def migratedText (config : AppPortConfig) (detected : String) : String :=
  canonicalConfig (if config.application.name = "app" then detected else config.application.name)
    (SUPPORTED_CAPABILITIES.filter config.capabilities.has)

theorem isKeyChar_of_isUseChar {c : Char} (h : isUseChar c = true) : isKeyChar c = true := by
  unfold isUseChar at h
  unfold isKeyChar
  show ((c.isUpper || c.isLower) || c.isDigit || c == '_' || c == '-') = true
  simp only [Bool.or_eq_true] at h ⊢
  tauto

theorem isUseChar_of_replaceRuns : (inRun : Bool) → (name : List Char) → ∀ c ∈ replaceRuns inRun name,
    isUseChar c = true
  | _, [], c, h => by cases h
  | inRun, d :: rest, c, h => by
    unfold replaceRuns at h
    split at h
    · next hd =>
      rcases List.mem_cons.mp h with rfl | h
      · exact hd
      · exact isUseChar_of_replaceRuns false rest c h
    · split at h
      · exact isUseChar_of_replaceRuns true rest c h
      · rcases List.mem_cons.mp h with rfl | h
        · decide
        · exact isUseChar_of_replaceRuns true rest c h

/-- **A name that is detected needs no quotes.** -/
theorem isBareKey_detected (toLowerCase : String → String) (directory : String)
    (manifest : Option JsValue) :
    isBareKey (detectFlowApplicationName toLowerCase directory manifest) = true := by
  unfold detectFlowApplicationName
  simp only
  generalize (toLowerCase _).toList = chars
  split
  · decide
  · next hne =>
    unfold isBareKey
    rw [String.toList_ofList, Bool.and_eq_true]
    refine ⟨by simpa using hne, List.all_eq_true.mpr fun c hc => ?_⟩
    apply isKeyChar_of_isUseChar
    apply isUseChar_of_replaceRuns false chars
    unfold withoutDashes at hc
    have hfirst := (List.dropWhile_sublist _).subset (List.mem_reverse.mp hc)
    exact (List.dropWhile_sublist _).subset (List.mem_reverse.mp hfirst)

/-! ## What is kept -/

/-- What a migration is to keep of a contract. -/
structure KeepsContract (config config' : AppPortConfig) : Prop where
  name : config'.application.name = config.application.name
  capabilities : config'.capabilities = config.capabilities
  mode : config'.deployment.mode = config.deployment.mode
  tenantDefault : config'.tenant.default = config.tenant.default
  stateNamespace : config'.state.stateNamespace = config.state.stateNamespace
  types : config.jobs.types.map Prod.fst ⊆ config'.jobs.types.map Prod.fst
  events : config.webhooks.allowed ⊆ config'.webhooks.allowed

/-- What is written parses again, and keeps the contract. -/
def Preserves (parse : Parser) (file : String) (config : AppPortConfig) (written : String) : Prop :=
  ∃ config', parseAppPortConfigText parse written file = .ok config' ∧ KeepsContract config config'

/-- The contract is one the template can say. -/
structure FitsTemplate (parse : Parser) (config : AppPortConfig) (detected : String) : Prop where
  detected : config.application.name = "app" → detected = "app"
  readsBack : ReadsBack parse config.application.name
  secrets : config.capabilities.secrets = false
  mode : config.deployment.mode = .local_
  tenantDefault : config.tenant.default = some "development"
  stateNamespace : config.state.stateNamespace = config.application.name
  types : ∀ type ∈ config.jobs.types.map Prod.fst,
    config.capabilities.jobs = true ∧ type = "example.process"
  events : ∀ event ∈ config.webhooks.allowed,
    config.capabilities.webhooks = true ∧ event = "example.created"

section migration

variable {parse : Parser} {file : String}

theorem readToml_of_ok {s : UseState} {raw : Table} (h : parse (joinLines s.tomlLines) = .ok raw) :
    readToml parse file s = normalizeConfig raw s.uses file := by
  unfold readToml
  rw [h]

/-- **The template is read as the contract it is.** -/
theorem parse_canonical (h : ReadsTemplate parse) {name : String} (hname : ReadsBack parse name)
    (hblank : isBlank name = false) (flags : CapabilityFlags) :
    parseAppPortConfigText parse (canonicalConfig name (selectedOf flags)) file =
      .ok (migratedContract name flags) := by
  obtain ⟨hone, hread⟩ := h.plain name (selectedOf flags) hname
  have hlines : splitLines (canonicalConfig name (selectedOf flags)) =
      canonicalLines name (selectedOf flags) :=
    splitLines_joinLines (canonicalLines_ne_nil _ _) (oneLine_canonicalLines hone _)
  unfold parseAppPortConfigText
  rw [hlines]
  refine (bind_of_ok (readUseLines_canonical hone file _) _).trans ?_
  exact (readToml_of_ok hread).trans (normalizeConfig_canonical hblank file flags)

theorem first_of_nameLine {name first : String} {others : List String}
    (h : splitLines (nameLine name) = first :: others) : ∃ tail, first.toList = 'n' :: tail := by
  have hchars : (nameLine name).toList = 'n' :: ("ame = \"".toList ++ name.toList ++ "\"".toList) := by
    simp [nameLine]
  unfold splitLines at h
  rw [hchars, List.splitOn_cons_eq_if_modifyHead, if_neg (by decide)] at h
  cases hrest : ("ame = \"".toList ++ name.toList ++ "\"".toList).splitOn '\n' with
  | nil => exact absurd hrest (List.splitOn_ne_nil _ _)
  | cons part parts =>
    rw [hrest, List.modifyHead_cons, List.map_cons] at h
    obtain ⟨hfirst, -⟩ := List.cons.inj h
    exact ⟨part, by rw [← hfirst, String.toList_ofList]⟩

/-- A name that is not read back is not the name of what is written. -/
theorem name_of_escaped (h : ReadsTemplate parse) {name : String} (hname : ¬ ReadsBack parse name)
    {selected : List AppPortCapabilityName} {config : AppPortConfig}
    (hconfig : parseAppPortConfigText parse (canonicalConfig name selected) file = .ok config) :
    config.application.name ≠ name := by
  cases hfirst : splitLines (nameLine name) with
  | nil => exact absurd hfirst (splitLines_ne_nil _)
  | cons first others =>
    obtain ⟨tail, htail⟩ := first_of_nameLine hfirst
    have huse : useLine (jsTrim first) = none := by
      have hdrop : first.toList.dropWhile isBlankChar = 'n' :: tail := by
        rw [htail]
        rfl
      obtain ⟨trimmed, htrimmed⟩ := jsTrim_of_first hdrop (by decide)
      exact useLine_of_first htrimmed (by decide)
    obtain ⟨more, hlines⟩ : ∃ more, splitLines (canonicalConfig name selected) =
        (preamble ++ [first]) ++ more := by
      have hpreamble : preamble.flatMap splitLines = preamble := by decide +kernel
      refine ⟨others ++ (templateLines name selected ++
        selected.map (fun capability => "use " ++ capability.text) ++ [""]).flatMap splitLines, ?_⟩
      unfold canonicalConfig
      rw [splitLines_joinLines_flatMap (canonicalLines_ne_nil _ _), canonicalLines,
        List.flatMap_append, List.flatMap_cons, hfirst, hpreamble, List.append_assoc]
      rfl
    have hread : readUseLines file {} (preamble ++ [first]) =
        .ok (UseState.behind {} (preamble ++ [first])) := by
      rw [readUseLines_others _ rfl]
      · simp [UseState.behind]
      · intro line hline
        rcases List.mem_append.mp hline with hline | hline
        · exact (isTomlLine_preamble line hline).2
        · obtain rfl := List.mem_singleton.mp hline
          exact huse
    obtain ⟨s, hs, hconfig⟩ := bind_eq_ok hconfig
    have hone := oneLine_readUseLines _ hs (fun l hl => oneLine_of_mem_splitLines hl)
      (fun l hl => by cases hl)
    rw [hlines, readUseLines_append, hread] at hs
    have hmore : (readUseLines file {} more).map (fun s' => s'.behind (preamble ++ [first])) = .ok s :=
      (readUseLines_behind file _ more {}).symm.trans hs
    cases hrest : readUseLines file {} more with
    | error e =>
      rw [hrest] at hmore
      cases hmore
    | ok s' =>
      rw [hrest] at hmore
      obtain rfl := Except.ok.inj hmore
      unfold readToml at hconfig
      split at hconfig
      · next raw hraw =>
        have hsplit : splitLines (joinLines (s'.behind (preamble ++ [first])).tomlLines) =
            preamble ++ first :: s'.tomlLines := by
          rw [splitLines_joinLines (by simp [UseState.behind, preamble]) hone]
          simp [UseState.behind]
        have hnot := h.escaped _ name first others _ raw hname hfirst hsplit hraw
        obtain ⟨happ | hgiven, -⟩ := name_of_normalizeConfig hconfig
        · rw [happ]
          rintro rfl
          exact hname (h.bare "app" (by decide))
        · rintro rfl
          exact hnot hgiven
      · cases hconfig

theorem isBlank_of_bareKey {name : String} (h : isBareKey name = true) : isBlank name = false := by
  unfold isBareKey at h
  rw [Bool.and_eq_true] at h
  obtain ⟨hne, hall⟩ := h
  unfold isBlank
  cases hchars : name.toList with
  | nil =>
    rw [hchars] at hne
    cases hne
  | cons c rest =>
    rw [hchars, List.all_cons, Bool.and_eq_true] at hall
    rw [List.all_cons, isJsWhitespace_of_key (.inl hall.1)]
    rfl

/-- The template keeps a contract that says what it says. -/
theorem keepsContract_iff (config : AppPortConfig) (name : String) :
    KeepsContract config (migratedContract name config.capabilities) ↔
      config.application.name = name ∧ config.capabilities.secrets = false ∧
      config.deployment.mode = .local_ ∧ config.tenant.default = some "development" ∧
      config.state.stateNamespace = name ∧
      (∀ type ∈ config.jobs.types.map Prod.fst,
        config.capabilities.jobs = true ∧ type = "example.process") ∧
      ∀ event ∈ config.webhooks.allowed,
        config.capabilities.webhooks = true ∧ event = "example.created" := by
  have hlist : ∀ (used : Bool) (said text : String),
      text ∈ (if used then [said] else []) ↔ used = true ∧ text = said := by
    intro used said text
    cases used <;> simp
  have htypes : ((migratedContract name config.capabilities).jobs.types.map Prod.fst) =
      if config.capabilities.jobs then ["example.process"] else [] := by
    show (if config.capabilities.jobs then [("example.process", (30000 : Int))] else []).map Prod.fst = _
    cases config.capabilities.jobs <;> rfl
  constructor
  · intro hkeeps
    refine ⟨hkeeps.name.symm, (congrArg CapabilityFlags.secrets hkeeps.capabilities).symm,
      hkeeps.mode.symm, hkeeps.tenantDefault.symm, hkeeps.stateNamespace.symm, ?_, ?_⟩
    · intro type htype
      have hmem := hkeeps.types htype
      rw [htypes] at hmem
      exact (hlist ..).mp hmem
    · intro event hevent
      exact (hlist ..).mp (hkeeps.events hevent)
  · rintro ⟨hname, hsecrets, hmode, htenant, hnamespace, hjobs, hevents⟩
    refine ⟨hname.symm, ?_, hmode.symm, htenant.symm, hnamespace.symm, ?_, ?_⟩
    · show { config.capabilities with secrets := false } = config.capabilities
      rw [← hsecrets]
    · intro type htype
      rw [htypes]
      exact (hlist ..).mpr (hjobs type htype)
    · intro event hevent
      exact (hlist ..).mpr (hevents event hevent)

end migration

/-- An application with an API and jobs. -/
def workerFlags : CapabilityFlags where
  api := true
  webhooks := false
  jobs := true
  secrets := false
  notifications := false
  files := false

/-- A contract that is deployed elsewhere. -/
def managedSource : String :=
  joinLines ["use api", "[application]", "name = \"shop\"", "[deployment]", "mode = \"managed\""]

end AppPort
