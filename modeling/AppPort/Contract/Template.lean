import AppPort.Contract.UseBlocks

/-!
# The template of a contract

The contract that the command line writes: fixed lines with the name of an application and
its capabilities in them. It is read as the contract it looks like, by any parser that reads
the name back.
-/

namespace AppPort

open Toml

/-! ## The template -/

def SUPPORTED_CAPABILITIES : List AppPortCapabilityName := [.api, .webhooks, .jobs, .notifications, .files]

/-- The line that names the application. -/
def nameLine (applicationName : String) : String := "name = \"" ++ applicationName ++ "\""

/-- The line that names its state. -/
def namespaceLine (applicationName : String) : String := "namespace = \"" ++ applicationName ++ "\""

/-- The template down to the name of the application. -/
def preamble : List String :=
  ["# AppPort application contract", "version = \"1\"", "", "[application]"]

def stateLines : List String :=
  ["description = \"AppPort application\"", "runtime = \"node\"", "", "[deployment]", "mode = \"local\"",
    "storage = \"durable\"", "distributed = true", "", "[state]", "enabled = true",
    "authority = \"feltdb\""]

def hostLines : List String :=
  ["", "[tenant]", "mode = \"required\"", "default = \"development\"", "", "[http]", "enabled = true",
    "host = \"127.0.0.1\"", "port = 4100", "", "[cors]", "enabled = true", "origins = [\"*\"]"]

/-- The tables of a capability. -/
def capabilityLines : AppPortCapabilityName → List String
  | .api => ["", "[api]", "enabled = true", "", "[api.keys]", "enabled = true"]
  | .webhooks => ["", "[webhooks]", "enabled = true", "", "[webhooks.delivery]", "enabled = true",
      "retries = 3", "timeout_ms = 10000", "", "[webhooks.events]", "allowed = [\"example.created\"]"]
  | .jobs => ["", "[jobs]", "enabled = true", "", "[jobs.execution]", "enabled = true",
      "max_attempts = 3", "", "[jobs.types]", "\"example.process\" = \x7b timeout_ms = 30000 \x7d"]
  | .notifications => ["", "[notifications]", "enabled = true", "default_priority = \"normal\"",
      "default_channel = \"in-app\""]
  | .files => ["", "[files]", "enabled = true"]
  | .secrets => []

def eventLines : List String :=
  ["", "[events]", "enabled = true", "", "[events.streaming]", "enabled = true", "transport = \"sse\"",
    "", "[authorization]"]

def lastLines : List String :=
  ["default = \"deny\"", "", "[observability]", "enabled = true", "", "[lifecycle]", "managed = true",
    "", "[development]", "mail = \"local\"", "webhooks = \"local\"", "jobs = \"local\"", ""]

/-- `enabled = ${has('api')}`. -/
def authorizationLine (selected : List AppPortCapabilityName) : String :=
  "enabled = " ++ (if selected.contains .api then "true" else "false")

/-- The lines after the name of the application, down to the `use` lines. -/
def templateLines (applicationName : String) (selected : List AppPortCapabilityName) : List String :=
  stateLines ++ namespaceLine applicationName :: (hostLines ++
    SUPPORTED_CAPABILITIES.flatMap (fun capability =>
      if selected.contains capability then capabilityLines capability else []) ++
    eventLines ++ authorizationLine selected :: lastLines)

/-- The lines of the template. -/
def canonicalLines (applicationName : String) (selected : List AppPortCapabilityName) : List String :=
  preamble ++ nameLine applicationName :: (templateLines applicationName selected ++
    selected.map (fun capability => "use " ++ capability.text) ++ [""])

/-- `canonicalConfig`. -/
def canonicalConfig (applicationName : String) (selected : List AppPortCapabilityName) : String :=
  joinLines (canonicalLines applicationName selected)

/-! ## What the template says -/

/-- The table of a capability. -/
def capabilityTable : AppPortCapabilityName → Table
  | .api => [("enabled", .bool true), ("keys", .table [("enabled", .bool true)])]
  | .webhooks => [("enabled", .bool true),
      ("delivery", .table [("enabled", .bool true), ("retries", .num 3), ("timeout_ms", .num 10000)]),
      ("events", .table [("allowed", .arr [.str "example.created"])])]
  | .jobs => [("enabled", .bool true),
      ("execution", .table [("enabled", .bool true), ("max_attempts", .num 3)]),
      ("types", .table [("example.process", .table [("timeout_ms", .num 30000)])])]
  | .notifications => [("enabled", .bool true), ("default_priority", .str "normal"),
      ("default_channel", .str "in-app")]
  | .files => [("enabled", .bool true)]
  | .secrets => []

/-- The document the template is. -/
def canonicalTable (applicationName : String) (selected : List AppPortCapabilityName) : Table :=
  [("version", .str "1"),
    ("application", .table [("name", .str applicationName),
      ("description", .str "AppPort application"), ("runtime", .str "node")]),
    ("deployment", .table [("mode", .str "local"), ("storage", .str "durable"),
      ("distributed", .bool true)]),
    ("state", .table [("enabled", .bool true), ("authority", .str "feltdb"),
      ("namespace", .str applicationName)]),
    ("tenant", .table [("mode", .str "required"), ("default", .str "development")]),
    ("http", .table [("enabled", .bool true), ("host", .str "127.0.0.1"), ("port", .num 4100)]),
    ("cors", .table [("enabled", .bool true), ("origins", .arr [.str "*"])])] ++
  SUPPORTED_CAPABILITIES.flatMap (fun capability =>
    if selected.contains capability then [(capability.text, .table (capabilityTable capability))] else []) ++
  [("events", .table [("enabled", .bool true),
      ("streaming", .table [("enabled", .bool true), ("transport", .str "sse")])]),
    ("authorization", .table [("enabled", .bool (selected.contains .api)), ("default", .str "deny")]),
    ("observability", .table [("enabled", .bool true)]),
    ("lifecycle", .table [("managed", .bool true)]),
    ("development", .table [("mail", .str "local"), ("webhooks", .str "local"), ("jobs", .str "local")])]

/-- The contract the template is. -/
def migratedContract (applicationName : String) (flags : CapabilityFlags) : AppPortConfig where
  application := { name := applicationName, description := "AppPort application" }
  deployment := { mode := .local_, storage := .durable, distributed := true }
  state := { enabled := true, stateNamespace := applicationName }
  tenant := { mode := .required, default := some "development" }
  http := { enabled := true, host := "127.0.0.1", port := 4100 }
  cors := { enabled := true, origins := ["*"] }
  capabilities := { flags with secrets := false }
  api := { enabled := flags.api, keysEnabled := flags.api }
  webhooks := { enabled := flags.webhooks, deliveryEnabled := flags.webhooks, retries := 3
                timeoutMs := 10000, allowed := if flags.webhooks then ["example.created"] else [] }
  jobs := { enabled := flags.jobs, executionEnabled := flags.jobs, maxAttempts := 3
            types := if flags.jobs then [("example.process", 30000)] else [] }
  secretsEnabled := false
  notifications := { enabled := flags.notifications, defaultPriority := "normal"
                     defaultChannel := "in-app", maxAttempts := 5 }
  filesEnabled := flags.files
  events := { enabled := true, streamingEnabled := true }
  authorization := { enabled := flags.api, default := .deny }
  observabilityEnabled := true
  lifecycleManaged := true
  development := { mail := "local", webhooks := "local", jobs := "local" }

/-- The capabilities a migration selects. -/
def selectedOf (flags : CapabilityFlags) : List AppPortCapabilityName :=
  SUPPORTED_CAPABILITIES.filter flags.has

theorem bind_of_ok {ε α β : Type} {r : Except ε α} {a : α} (h : r = .ok a) (f : α → Except ε β) :
    (r >>= f) = f a := by
  rw [h]
  rfl

theorem str_of_text {name : String} (h : isBlank name = false) (file property fallback : String) :
    NormalizeConfig.str file (some (.str name)) property fallback = .ok name := by
  simp [NormalizeConfig.str, h]

/-- The tables of the template. -/
def canonicalSections (applicationName : String) (flags : CapabilityFlags) :
    NormalizeConfig.Sections where
  application := [("name", .str applicationName), ("description", .str "AppPort application"),
    ("runtime", .str "node")]
  deployment := [("mode", .str "local"), ("storage", .str "durable"), ("distributed", .bool true)]
  state := [("enabled", .bool true), ("authority", .str "feltdb"), ("namespace", .str applicationName)]
  tenant := [("mode", .str "required"), ("default", .str "development")]
  http := [("enabled", .bool true), ("host", .str "127.0.0.1"), ("port", .num 4100)]
  cors := [("enabled", .bool true), ("origins", .arr [.str "*"])]
  api := if flags.api then capabilityTable .api else []
  apiKeys := if flags.api then [("enabled", .bool true)] else []
  webhooks := if flags.webhooks then capabilityTable .webhooks else []
  webhookDelivery := if flags.webhooks then
    [("enabled", .bool true), ("retries", .num 3), ("timeout_ms", .num 10000)] else []
  webhookEvents := if flags.webhooks then [("allowed", .arr [.str "example.created"])] else []
  jobs := if flags.jobs then capabilityTable .jobs else []
  jobExecution := if flags.jobs then [("enabled", .bool true), ("max_attempts", .num 3)] else []
  jobTypes := if flags.jobs then
    [("example.process", .table [("timeout_ms", .num 30000)])] else []
  notifications := if flags.notifications then capabilityTable .notifications else []
  files := if flags.files then capabilityTable .files else []
  events := [("enabled", .bool true),
    ("streaming", .table [("enabled", .bool true), ("transport", .str "sse")])]
  streaming := [("enabled", .bool true), ("transport", .str "sse")]
  authorization := [("enabled", .bool flags.api), ("default", .str "deny")]
  observability := [("enabled", .bool true)]
  lifecycle := [("managed", .bool true)]
  development := [("mail", .str "local"), ("webhooks", .str "local"), ("jobs", .str "local")]

/-- The template has no other tables than those. -/
theorem sections_canonical (name file : String) (flags : CapabilityFlags) :
    NormalizeConfig.sections file (canonicalTable name (selectedOf flags)) =
      .ok (canonicalSections name flags) := by
  obtain ⟨api, webhooks, jobs, secrets, notifications, files⟩ := flags
  cases api <;> cases webhooks <;> cases jobs <;> cases notifications <;> cases files <;> rfl

/-- The types of jobs the template declares. -/
def migratedTypes (flags : CapabilityFlags) : List (String × Int) :=
  if flags.jobs then [("example.process", 30000)] else []

theorem contract_canonical {name : String} (h : isBlank name = false) (file : String)
    (flags : CapabilityFlags) {uses : List AppPortCapabilityName}
    (huses : ∀ capability, uses.contains capability = { flags with secrets := false }.has capability) :
    NormalizeConfig.contract file (canonicalTable name (selectedOf flags)) (canonicalSections name flags)
      uses name (migratedTypes flags) 3 = .ok (migratedContract name flags) := by
  obtain ⟨api, webhooks, jobs, secrets, notifications, files⟩ := flags
  unfold NormalizeConfig.contract
  simp only [huses, CapabilityFlags.has]
  clear huses
  iterate 8 refine (bind_of_ok rfl _).trans ?_
  refine (bind_of_ok (str_of_text h file "state.namespace" name) _).trans ?_
  iterate 7 refine (bind_of_ok rfl _).trans ?_
  -- what a capability says where it is used is also what is assumed where it is not
  refine (bind_of_ok (a := api) (by cases api <;> rfl) _).trans ?_
  refine (bind_of_ok (a := webhooks) (by cases webhooks <;> rfl) _).trans ?_
  refine (bind_of_ok (a := 3) (by cases webhooks <;> rfl) _).trans ?_
  refine (bind_of_ok (a := 10000) (by cases webhooks <;> rfl) _).trans ?_
  refine (bind_of_ok (a := if webhooks then ["example.created"] else [])
    (by cases webhooks <;> rfl) _).trans ?_
  refine (bind_of_ok (a := jobs) (by cases jobs <;> rfl) _).trans ?_
  refine (bind_of_ok (a := "normal") (by cases notifications <;> rfl) _).trans ?_
  refine (bind_of_ok (a := "in-app") (by cases notifications <;> rfl) _).trans ?_
  refine (bind_of_ok (a := []) (by cases notifications <;> rfl) _).trans ?_
  refine (bind_of_ok rfl _).trans ?_
  refine (bind_of_ok (a := files) (by cases files <;> rfl) _).trans ?_
  iterate 10 refine (bind_of_ok rfl _).trans ?_
  rfl

/-- The capabilities that `use` lines declare one after the other. -/
def declared (selected : List AppPortCapabilityName) : List AppPortCapabilityName :=
  selected.foldl (fun uses capability => uses.insert capability) []

theorem contains_declared (flags : CapabilityFlags) (capability : AppPortCapabilityName) :
    (declared (selectedOf flags)).contains capability = { flags with secrets := false }.has capability := by
  obtain ⟨api, webhooks, jobs, secrets, notifications, files⟩ := flags
  cases api <;> cases webhooks <;> cases jobs <;> cases notifications <;> cases files <;>
    cases capability <;> rfl

/-- What a document says of a capability is what its `use` lines say. -/
def SaysWhatIsUsed (raw : Table) (uses : List AppPortCapabilityName)
    (capability : AppPortCapabilityName) : Prop :=
  (uses.contains capability = true ∧ ∃ fields,
    raw.lookup capability.text = some (.table fields) ∧ fields.lookup "enabled" = some (.bool true)) ∨
  (uses.contains capability = false ∧ raw.lookup capability.text = none)

/-- Then its tables declare no more, and no less. -/
theorem useDeclared_of_used {file : String} {raw : Table} {uses : List AppPortCapabilityName} :
    (capabilities : List AppPortCapabilityName) →
    (∀ capability ∈ capabilities, SaysWhatIsUsed raw uses capability) →
    NormalizeConfig.useDeclared file raw uses capabilities = .ok uses
  | [], _ => rfl
  | capability :: rest, h => by
    have ih : NormalizeConfig.useDeclared file raw uses rest = .ok uses :=
      useDeclared_of_used rest fun c hc => h c (List.mem_cons_of_mem _ hc)
    unfold NormalizeConfig.useDeclared NormalizeConfig.section_
    rcases h capability List.mem_cons_self with ⟨hused, fields, hfields, henabled⟩ | ⟨hunused, hnone⟩
    · rw [hfields]
      refine (bind_of_ok (a := fields) rfl _).trans ?_
      rw [henabled]
      refine (bind_of_ok (a := true) rfl _).trans ?_
      rw [if_pos rfl, List.insert_of_mem (List.contains_iff_mem.mp hused)]
      exact ih
    · rw [hnone, hunused]
      refine (bind_of_ok (a := []) rfl _).trans ?_
      refine (bind_of_ok (a := false) rfl _).trans ?_
      exact ih

theorem lookup_ite (b : Bool) (key key' : String) (value : Value) :
    (if b then [(key, value)] else []).lookup key' = if b && key' == key then some value else none := by
  cases b
  · rfl
  · rw [if_pos rfl, Bool.true_and, List.lookup_cons]
    cases key' == key <;> rfl

/-- The table of a capability is in the template where the capability is selected. -/
theorem lookup_canonical (name : String) (selected : List AppPortCapabilityName)
    {capability : AppPortCapabilityName} (h : capability ≠ .secrets) :
    (canonicalTable name selected).lookup capability.text =
      if selected.contains capability then some (.table (capabilityTable capability)) else none := by
  unfold canonicalTable SUPPORTED_CAPABILITIES
  cases capability with
  | secrets => exact absurd rfl h
  | api | webhooks | jobs | notifications | files =>
    simp only [List.lookup_append, List.flatMap_cons, List.flatMap_nil, lookup_ite]
    simp [AppPortCapabilityName.text, List.lookup_cons]

theorem lookup_secrets (name : String) (selected : List AppPortCapabilityName) :
    (canonicalTable name selected).lookup AppPortCapabilityName.secrets.text = none := by
  unfold canonicalTable SUPPORTED_CAPABILITIES
  simp only [List.lookup_append, List.flatMap_cons, List.flatMap_nil, lookup_ite]
  simp [AppPortCapabilityName.text, List.lookup_cons]

theorem contains_selected (flags : CapabilityFlags) (capability : AppPortCapabilityName) :
    (selectedOf flags).contains capability = { flags with secrets := false }.has capability := by
  rw [← contains_declared, Bool.eq_iff_iff, List.contains_iff_mem, List.contains_iff_mem]
  have hfold : ∀ (selected uses : List AppPortCapabilityName),
      capability ∈ selected.foldl (fun uses c => uses.insert c) uses ↔
        capability ∈ selected ∨ capability ∈ uses := by
    intro selected
    induction selected with
    | nil => simp
    | cons c rest ih =>
      intro uses
      rw [List.foldl_cons, ih, List.mem_insert_iff, List.mem_cons]
      tauto
  simp [declared, hfold]

theorem useDeclared_canonical (name file : String) (flags : CapabilityFlags) :
    NormalizeConfig.useDeclared file (canonicalTable name (selectedOf flags))
      (declared (selectedOf flags)) AppPortCapabilityName.all = .ok (declared (selectedOf flags)) := by
  refine useDeclared_of_used _ fun capability _ => ?_
  unfold SaysWhatIsUsed
  rw [contains_declared]
  by_cases hsecrets : capability = .secrets
  · subst hsecrets
    exact .inr ⟨rfl, lookup_secrets name _⟩
  · rw [lookup_canonical name _ hsecrets, contains_selected]
    cases { flags with secrets := false }.has capability with
    | false => exact .inr ⟨rfl, rfl⟩
    | true =>
      refine .inl ⟨rfl, capabilityTable capability, rfl, ?_⟩
      cases capability with
      | secrets => exact absurd rfl hsecrets
      | api | webhooks | jobs | notifications | files => rfl

/-- **The template is read as the contract it is**, whatever the name in it. -/
theorem normalizeConfig_canonical {name : String} (h : isBlank name = false) (file : String)
    (flags : CapabilityFlags) :
    normalizeConfig (canonicalTable name (selectedOf flags)) (declared (selectedOf flags)) file =
      .ok (migratedContract name flags) := by
  unfold normalizeConfig
  refine (bind_of_ok (sections_canonical name file flags) _).trans ?_
  refine (bind_of_ok (useDeclared_canonical name file flags) _).trans ?_
  refine (bind_of_ok (str_of_text h file "application.name" "app") _).trans ?_
  obtain ⟨api, webhooks, jobs, secrets, notifications, files⟩ := flags
  refine (bind_of_ok (a := []) (by cases api <;> rfl) _).trans ?_
  refine (bind_of_ok rfl _).trans ?_
  refine (bind_of_ok (a := migratedTypes ⟨api, webhooks, jobs, secrets, notifications, files⟩)
    (by cases jobs <;> rfl) _).trans ?_
  refine (bind_of_ok (a := 3) (by cases jobs <;> rfl) _).trans ?_
  exact contract_canonical h file _ (contains_declared _)

/-! ## The name of a contract -/

/-- What a document names its application. -/
def nameIn (raw : Table) : Option Value :=
  match raw.lookup "application" with
  | some (.table fields) => fields.lookup "name"
  | _ => none

theorem name_of_contract {file : String} {raw : Table} {s : NormalizeConfig.Sections}
    {uses : List AppPortCapabilityName} {name : String} {types : List (String × Int)} {attempts : Int}
    {config : AppPortConfig} (h : NormalizeConfig.contract file raw s uses name types attempts = .ok config) :
    config.application.name = name := by
  unfold NormalizeConfig.contract at h
  iterate 37 obtain ⟨_, -, h⟩ := bind_eq_ok h
  obtain rfl := Except.ok.inj h
  rfl

theorem application_of_sections {file : String} {raw : Table} {s : NormalizeConfig.Sections}
    (h : NormalizeConfig.sections file raw = .ok s) :
    NormalizeConfig.section_ file raw "application" = .ok s.application := by
  unfold NormalizeConfig.sections at h
  obtain ⟨application, happlication, h⟩ := bind_eq_ok h
  iterate 21 obtain ⟨_, -, h⟩ := bind_eq_ok h
  obtain rfl := Except.ok.inj h
  exact happlication

/-- A contract has the name its document gives, or none is given. -/
theorem name_of_normalizeConfig {file : String} {raw : Table} {uses : List AppPortCapabilityName}
    {config : AppPortConfig} (h : normalizeConfig raw uses file = .ok config) :
    (config.application.name = "app" ∨ nameIn raw = some (.str config.application.name)) ∧
      isBlank config.application.name = false := by
  unfold normalizeConfig at h
  obtain ⟨s, hs, h⟩ := bind_eq_ok h
  obtain ⟨declared, -, h⟩ := bind_eq_ok h
  obtain ⟨name, hname, h⟩ := bind_eq_ok h
  iterate 4 obtain ⟨_, -, h⟩ := bind_eq_ok h
  rw [name_of_contract h]
  have happlication := application_of_sections hs
  unfold NormalizeConfig.str at hname
  split at hname
  · obtain rfl := Except.ok.inj hname
    exact ⟨.inl rfl, by decide⟩
  · next text hfield =>
    split at hname
    · cases hname
    · next hblank =>
      obtain rfl := Except.ok.inj hname
      refine ⟨.inr ?_, by simpa using hblank⟩
      -- the field is one of the table of the document
      unfold NormalizeConfig.section_ NormalizeConfig.objectOf at happlication
      unfold nameIn
      split at happlication
      · rw [← Except.ok.inj happlication] at hfield
        cases hfield
      · next value hvalue =>
        rw [hvalue]
        cases value with
        | table fields =>
          rw [← Except.ok.inj happlication] at hfield
          exact hfield
        | date text =>
          rw [← Except.ok.inj happlication] at hfield
          cases hfield
        | str | num | real | bool | arr => cases happlication
  · cases hname

/-! ## Reading what is written -/

/-- The lines of the template that are TOML. -/
def canonicalToml (applicationName : String) (selected : List AppPortCapabilityName) : List String :=
  preamble ++ nameLine applicationName :: (templateLines applicationName selected ++ [""])

/-- A line of TOML: one line, and no `use` line. -/
def IsTomlLine (line : String) : Prop := OneLine line ∧ useLine (jsTrim line) = none

instance (line : String) : Decidable (IsTomlLine line) :=
  inferInstanceAs (Decidable (OneLine line ∧ useLine (jsTrim line) = none))

theorem isTomlLine_fixed : ∀ line ∈ preamble ++ stateLines ++ hostLines ++
    AppPortCapabilityName.all.flatMap capabilityLines ++ eventLines ++ lastLines ++
    ["enabled = true", "enabled = false", ""], IsTomlLine line := by
  decide +kernel

/-- A line that gives a name is a line of TOML where the name is one line. -/
theorem isTomlLine_quoted {name : String} (hname : OneLine name) (key : String)
    (hkey : OneLine key) : IsTomlLine (key ++ " = \"" ++ name ++ "\"") := by
  constructor
  · unfold OneLine at *
    simp only [String.toList_append, List.mem_append, not_or]
    exact ⟨⟨⟨hkey, by decide⟩, hname⟩, by decide⟩
  · refine useLine_of_equals (mem_jsTrim (by decide) ?_)
    simp

theorem isTomlLine_templateLines {name : String} (hname : OneLine name)
    (selected : List AppPortCapabilityName) :
    ∀ line ∈ templateLines name selected ++ [""], IsTomlLine line := by
  have hfixed := isTomlLine_fixed
  simp only [List.mem_append] at hfixed
  intro line hline
  unfold templateLines at hline
  simp only [List.mem_append, List.mem_cons] at hline
  rcases hline with (hline | rfl | ((hline | hline) | hline) | rfl | hline) | hline
  · exact hfixed line (by tauto)
  · exact isTomlLine_quoted hname "namespace" (by decide)
  · exact hfixed line (by tauto)
  · obtain ⟨capability, -, hline⟩ := List.mem_flatMap.mp hline
    split at hline
    · refine hfixed line (.inl (.inl (.inl (.inr (List.mem_flatMap.mpr ⟨capability, ?_, hline⟩)))))
      cases capability <;> decide
    · cases hline
  · exact hfixed line (by tauto)
  · unfold authorizationLine
    split
    · exact hfixed _ (.inr (by decide))
    · exact hfixed _ (.inr (by decide))
  · exact hfixed line (by tauto)
  · rcases hline with rfl | hline
    · exact hfixed _ (.inr (by decide))
    · cases hline

theorem isTomlLine_canonicalToml {name : String} (hname : OneLine name)
    (selected : List AppPortCapabilityName) : ∀ line ∈ canonicalToml name selected, IsTomlLine line := by
  have hfixed := isTomlLine_fixed
  simp only [List.mem_append] at hfixed
  intro line hline
  unfold canonicalToml at hline
  rcases List.mem_append.mp hline with hline | hline
  · exact hfixed line (by tauto)
  · rcases List.mem_cons.mp hline with rfl | hline
    · exact isTomlLine_quoted hname "name" (by decide)
    · exact isTomlLine_templateLines hname selected line hline

/-- The `use` lines declare their capabilities. -/
theorem readUseLines_uses (file : String) : (capabilities : List AppPortCapabilityName) →
    {s : UseState} → s.useBlock = none →
    readUseLines file s (capabilities.map fun capability => "use " ++ capability.text) =
      .ok { s with uses := capabilities.foldl (fun uses c => uses.insert c) s.uses }
  | [], _, _ => rfl
  | capability :: rest, s, hs => by
    rw [List.map_cons, readUseLines_cons, readUseLine_use file hs]
    exact readUseLines_uses file rest (s := { s with uses := s.uses.insert capability }) hs

/-- **What the preprocessor makes of the template.** -/
theorem readUseLines_canonical {name : String} (hname : OneLine name) (file : String)
    (selected : List AppPortCapabilityName) :
    readUseLines file {} (canonicalLines name selected) =
      .ok { uses := declared selected, tomlLines := canonicalToml name selected } := by
  have hlines : ∀ line ∈ preamble ++ nameLine name :: templateLines name selected,
      useLine (jsTrim line) = none := by
    intro line hline
    refine (isTomlLine_canonicalToml hname selected line ?_).2
    unfold canonicalToml
    simp only [List.mem_append, List.mem_cons] at hline ⊢
    tauto
  have hsplit : canonicalLines name selected = (preamble ++ nameLine name ::
      templateLines name selected) ++ (selected.map (fun capability => "use " ++ capability.text) ++
        [""]) := by
    simp [canonicalLines]
  rw [hsplit, readUseLines_append, readUseLines_others _ rfl hlines]
  show readUseLines file _ (_ ++ [""]) = _
  rw [readUseLines_append, readUseLines_uses file selected rfl]
  show readUseLines file _ [""] = _
  rw [readUseLines_others _ rfl (by decide +kernel)]
  simp [declared, canonicalToml]

/-- The parser reads the name back from a line that gives it. -/
def ReadsBack (parse : Parser) (name : String) : Prop :=
  parse (nameLine name) = .ok [("name", .str name)]

/-- What is relied on of a parser that reads the template. -/
structure ReadsTemplate (parse : Parser) : Prop where
  /-- A name of letters, digits, underscores and dashes is read back. -/
  bare : ∀ name, isBareKey name = true → ReadsBack parse name
  /-- With a name that is read back, the template is the document it looks like. -/
  plain : ∀ name selected, ReadsBack parse name →
    OneLine name ∧ parse (joinLines (canonicalToml name selected)) = .ok (canonicalTable name selected)
  /-- A name that is not read back from a line of its own is not read back from a document
  that has this line. -/
  escaped : ∀ text name first others rest raw, ¬ ReadsBack parse name →
    splitLines (nameLine name) = first :: others → splitLines text = preamble ++ first :: rest →
    parse text = .ok raw → nameIn raw ≠ some (.str name)

theorem canonicalLines_ne_nil (name : String) (selected : List AppPortCapabilityName) :
    canonicalLines name selected ≠ [] := List.cons_ne_nil _ _

theorem oneLine_canonicalLines {name : String} (hname : OneLine name)
    (selected : List AppPortCapabilityName) : ∀ line ∈ canonicalLines name selected, OneLine line := by
  have htoml : ∀ line ∈ canonicalToml name selected, OneLine line := fun line hline =>
    (isTomlLine_canonicalToml hname selected line hline).1
  unfold canonicalToml at htoml
  intro line hline
  unfold canonicalLines at hline
  rcases List.mem_append.mp hline with hline | hline
  · exact htoml line (List.mem_append_left _ hline)
  rcases List.mem_cons.mp hline with rfl | hline
  · exact htoml _ (List.mem_append_right _ List.mem_cons_self)
  rcases List.mem_append.mp hline with hline | hline
  · rcases List.mem_append.mp hline with hline | hline
    · exact htoml line (List.mem_append_right _ (List.mem_cons_of_mem _ (List.mem_append_left _ hline)))
    · obtain ⟨capability, -, rfl⟩ := List.mem_map.mp hline
      cases capability <;> decide
  · exact htoml line (List.mem_append_right _ (List.mem_cons_of_mem _ (List.mem_append_right _ hline)))

theorem isTomlLine_preamble : ∀ line ∈ preamble, IsTomlLine line := by decide +kernel

/-! ## A parser that reads the template -/

/-- The tables of the template before those of the capabilities. -/
def sectionsBefore (applicationName : String) : List Section :=
  [{ key := "application", pairs := [("name", .str applicationName),
       ("description", .str "AppPort application"), ("runtime", .str "node")], tables := [] },
    { key := "deployment", pairs := [("mode", .str "local"), ("storage", .str "durable"),
       ("distributed", .bool true)], tables := [] },
    { key := "state", pairs := [("enabled", .bool true), ("authority", .str "feltdb"),
       ("namespace", .str applicationName)], tables := [] },
    { key := "tenant", pairs := [("mode", .str "required"), ("default", .str "development")]
      tables := [] },
    { key := "http", pairs := [("enabled", .bool true), ("host", .str "127.0.0.1"),
       ("port", .num 4100)], tables := [] },
    { key := "cors", pairs := [("enabled", .bool true), ("origins", .arr [.str "*"])], tables := [] }]

/-- The table of a capability, its own tables apart. -/
def capabilitySection (capability : AppPortCapabilityName) : Section :=
  match capability with
  | .api => { key := "api", pairs := [("enabled", .bool true)]
              tables := [("keys", [("enabled", .bool true)])] }
  | .webhooks => { key := "webhooks", pairs := [("enabled", .bool true)]
                   tables := [("delivery", [("enabled", .bool true), ("retries", .num 3),
                       ("timeout_ms", .num 10000)]),
                     ("events", [("allowed", .arr [.str "example.created"])])] }
  | .jobs => { key := "jobs", pairs := [("enabled", .bool true)]
               tables := [("execution", [("enabled", .bool true), ("max_attempts", .num 3)]),
                 ("types", [("example.process", .table [("timeout_ms", .num 30000)])])] }
  | .notifications => { key := "notifications", pairs := [("enabled", .bool true),
                          ("default_priority", .str "normal"), ("default_channel", .str "in-app")]
                        tables := [] }
  | .files => { key := "files", pairs := [("enabled", .bool true)], tables := [] }
  | .secrets => { key := "secrets", pairs := [], tables := [] }

/-- Those after them. -/
def sectionsAfter (selected : List AppPortCapabilityName) : List Section :=
  [{ key := "events", pairs := [("enabled", .bool true)]
     tables := [("streaming", [("enabled", .bool true), ("transport", .str "sse")])] },
    { key := "authorization", pairs := [("enabled", .bool (selected.contains .api)),
       ("default", .str "deny")], tables := [] },
    { key := "observability", pairs := [("enabled", .bool true)], tables := [] },
    { key := "lifecycle", pairs := [("managed", .bool true)], tables := [] },
    { key := "development", pairs := [("mail", .str "local"), ("webhooks", .str "local"),
       ("jobs", .str "local")], tables := [] }]

def templateSections (applicationName : String) (selected : List AppPortCapabilityName) : List Section :=
  sectionsBefore applicationName ++
    (SUPPORTED_CAPABILITIES.filter selected.contains).map capabilitySection ++ sectionsAfter selected

theorem flatMap_ite {α β : Type} (p : α → Bool) (f : α → List β) : (xs : List α) →
    (xs.flatMap fun x => if p x then f x else []) = (xs.filter p).flatMap f
  | [] => rfl
  | x :: xs => by
    rw [List.flatMap_cons, flatMap_ite p f xs]
    cases hx : p x <;> simp [hx]

theorem says_preamble : Says preamble
    [.entry "version" (.str "1"), .header ["application"]] := ⟨_, rfl, rfl⟩

theorem says_capability {capability : AppPortCapabilityName} (h : capability ≠ .secrets) :
    Says (capabilityLines capability) (capabilitySection capability).statements := by
  cases capability with
  | secrets => exact absurd rfl h
  | api | webhooks | jobs | notifications | files => exact ⟨_, rfl, rfl⟩

theorem says_before {applicationName : String} (h : isPlain applicationName = true) :
    Says (preamble ++ nameLine applicationName ::
        (stateLines ++ namespaceLine applicationName :: hostLines))
      (.entry "version" (.str "1") :: (sectionsBefore applicationName).flatMap Section.statements) := by
  have hname : Says [nameLine applicationName] [.entry "name" (.str applicationName)] :=
    .of_entry (readStatement_quoted "name" (by decide) h)
  have hstate : Says stateLines [.entry "description" (.str "AppPort application"),
      .entry "runtime" (.str "node"), .header ["deployment"], .entry "mode" (.str "local"),
      .entry "storage" (.str "durable"), .entry "distributed" (.bool true), .header ["state"],
      .entry "enabled" (.bool true), .entry "authority" (.str "feltdb")] := ⟨_, rfl, rfl⟩
  have hnamespace : Says [namespaceLine applicationName]
      [.entry "namespace" (.str applicationName)] :=
    .of_entry (readStatement_quoted "namespace" (by decide) h)
  have hhost : Says hostLines [.header ["tenant"], .entry "mode" (.str "required"),
      .entry "default" (.str "development"), .header ["http"], .entry "enabled" (.bool true),
      .entry "host" (.str "127.0.0.1"), .entry "port" (.num 4100), .header ["cors"],
      .entry "enabled" (.bool true), .entry "origins" (.arr [.str "*"])] := ⟨_, rfl, rfl⟩
  exact says_preamble.append (hname.append (hstate.append (hnamespace.append hhost)))

theorem says_after (selected : List AppPortCapabilityName) :
    Says (eventLines ++ authorizationLine selected :: lastLines)
      ((sectionsAfter selected).flatMap Section.statements) := by
  have hauthorization : Says [authorizationLine selected]
      [.entry "enabled" (.bool (selected.contains .api))] := by
    unfold authorizationLine
    cases selected.contains .api <;> exact ⟨_, rfl, rfl⟩
  have hevents : Says eventLines [.header ["events"], .entry "enabled" (.bool true),
      .header ["events", "streaming"], .entry "enabled" (.bool true),
      .entry "transport" (.str "sse"), .header ["authorization"]] := ⟨_, rfl, rfl⟩
  have hlast : Says lastLines [.entry "default" (.str "deny"), .header ["observability"],
      .entry "enabled" (.bool true), .header ["lifecycle"], .entry "managed" (.bool true),
      .header ["development"], .entry "mail" (.str "local"), .entry "webhooks" (.str "local"),
      .entry "jobs" (.str "local")] := ⟨_, rfl, rfl⟩
  exact hevents.append (hauthorization.append hlast)

/-- The lines of the template say its tables. -/
theorem says_canonicalToml {applicationName : String} (h : isPlain applicationName = true)
    (selected : List AppPortCapabilityName) :
    Says (canonicalToml applicationName selected) (.entry "version" (.str "1") ::
      (templateSections applicationName selected).flatMap Section.statements) := by
  have hcapabilities : Says
      (SUPPORTED_CAPABILITIES.flatMap fun capability =>
        if selected.contains capability then capabilityLines capability else [])
      (((SUPPORTED_CAPABILITIES.filter selected.contains).map capabilitySection).flatMap
        Section.statements) := by
    rw [flatMap_ite, List.flatMap_map]
    refine .flatMap _ fun capability hcapability => says_capability ?_
    rintro rfl
    exact absurd (List.mem_filter.mp hcapability).1 (by decide)
  have hend : Says [""] [] := ⟨_, rfl, rfl⟩
  have hall := (says_before h).append (hcapabilities.append ((says_after selected).append hend))
  unfold canonicalToml templateLines templateSections
  simpa only [List.append_assoc, List.cons_append, List.flatMap_append, List.append_nil] using hall

theorem value_capabilitySection (capability : AppPortCapabilityName) :
    (capabilitySection capability).key = capability.text ∧
      (capabilitySection capability).value = .table (capabilityTable capability) := by
  cases capability <;> exact ⟨rfl, rfl⟩

/-- The tables of the template are the document it is. -/
theorem value_templateSections (applicationName : String) (selected : List AppPortCapabilityName) :
    ("version", Value.str "1") ::
        (templateSections applicationName selected).map (fun s => (s.key, s.value)) =
      canonicalTable applicationName selected := by
  have hcapabilities : ((SUPPORTED_CAPABILITIES.filter selected.contains).map capabilitySection).map
      (fun s => (s.key, s.value)) = SUPPORTED_CAPABILITIES.flatMap fun capability =>
        if selected.contains capability then
          [(capability.text, Value.table (capabilityTable capability))] else [] := by
    rw [flatMap_ite, List.map_map, ← List.map_eq_flatMap]
    refine List.map_congr_left fun capability _ => ?_
    exact Prod.ext (value_capabilitySection capability).1 (value_capabilitySection capability).2
  unfold templateSections
  rw [List.map_append, List.map_append, hcapabilities]
  rfl

theorem wellFormed_templateSections (applicationName : String) (selected : List AppPortCapabilityName) :
    ∀ s ∈ templateSections applicationName selected, s.WellFormed := by
  intro s hs
  unfold templateSections at hs
  simp only [List.mem_append, List.mem_map] at hs
  rcases hs with (hs | ⟨capability, -, rfl⟩) | hs
  · simp only [sectionsBefore, List.mem_cons, List.not_mem_nil, or_false] at hs
    rcases hs with rfl | rfl | rfl | rfl | rfl | rfl <;>
      exact ⟨by simp [Section.keys], by simp⟩
  · cases capability <;> exact ⟨by simp [Section.keys, capabilitySection], by simp [capabilitySection]⟩
  · simp only [sectionsAfter, List.mem_cons, List.not_mem_nil, or_false] at hs
    rcases hs with rfl | rfl | rfl | rfl | rfl <;>
      exact ⟨by simp [Section.keys], by simp⟩

theorem nodup_templateSections (applicationName : String) (selected : List AppPortCapabilityName) :
    ("version" :: (templateSections applicationName selected).map Section.key).Nodup := by
  have hall : ("version" :: (["application", "deployment", "state", "tenant", "http", "cors"] ++
      SUPPORTED_CAPABILITIES.map AppPortCapabilityName.text ++
      ["events", "authorization", "observability", "lifecycle", "development"])).Nodup := by
    decide
  refine hall.sublist (List.Sublist.cons_cons _ ?_)
  unfold templateSections
  rw [List.map_append, List.map_append, List.map_map]
  refine ((List.Sublist.refl _).append ?_).append (List.Sublist.refl _)
  have hkeys : (Section.key ∘ capabilitySection) = AppPortCapabilityName.text :=
    funext fun capability => (value_capabilitySection capability).1
  rw [hkeys]
  exact List.filter_sublist.map _

theorem oneLine_of_plain {name : String} (h : isPlain name = true) : OneLine name := by
  intro hmem
  exact absurd (List.all_eq_true.mp h _ hmem) (by decide)

/-- A name is read back where it needs no escapes. -/
theorem readsBack_iff (name : String) : ReadsBack readDocument name ↔ isPlain name = true := by
  constructor
  · intro h
    have hplain := plain_of_readDocument h _ List.mem_cons_self
    cases hplain with
    | str hplain => exact hplain
  · intro h
    have hone : OneLine (nameLine name) :=
      (isTomlLine_quoted (oneLine_of_plain h) "name" (by decide)).1
    have hsays : Says (splitLines (nameLine name))
        (([("name", Value.str name)] : Table).map (fun pair => Statement.entry pair.1 pair.2) ++
          ([] : List Section).flatMap Section.statements) := by
      rw [splitLines_of_oneLine hone]
      exact .of_entry (readStatement_quoted "name" (by decide) h)
    exact readDocument_of_says _ hsays (by simp) (by simp)

theorem isPlain_of_bareKey {name : String} (h : isBareKey name = true) : isPlain name = true := by
  refine List.all_eq_true.mpr fun c hc => ?_
  have hkey := (isKeyChar_of_bareKey h).2 c hc
  unfold isPlainChar
  rw [Bool.and_eq_true, Bool.and_eq_true, Bool.and_eq_true, bne_iff_ne, bne_iff_ne,
    decide_eq_true_eq]
  refine ⟨⟨⟨?_, ?_⟩, ?_⟩, ?_⟩
  · rintro rfl
    exact absurd hkey (by decide)
  · rintro rfl
    exact absurd hkey (by decide)
  · have hrange := isKeyChar_range hkey
    omega
  · have hrange := isKeyChar_range hkey
    rw [bne_iff_ne]
    omega

/-- **A parser that reads the template.** -/
theorem readsTemplate_readDocument : ReadsTemplate readDocument where
  bare := fun name h => (readsBack_iff name).mpr (isPlain_of_bareKey h)
  plain := by
    intro name selected h
    have hplain := (readsBack_iff name).mp h
    have hone := oneLine_of_plain hplain
    refine ⟨hone, ?_⟩
    have hlines : splitLines (joinLines (canonicalToml name selected)) = canonicalToml name selected :=
      splitLines_joinLines (List.cons_ne_nil _ _) fun line hline =>
        (isTomlLine_canonicalToml hone selected line hline).1
    rw [← value_templateSections]
    refine readDocument_of_says [("version", .str "1")] ?_
      (wellFormed_templateSections name selected) (nodup_templateSections name selected)
    rw [hlines]
    exact says_canonicalToml hplain selected
  escaped := by
    intro text name first others rest raw hname _ _ hraw hgiven
    refine hname ((readsBack_iff name).mpr ?_)
    unfold nameIn at hgiven
    split at hgiven
    · next fields hfields =>
      cases plain_of_readDocument hraw _ (mem_of_lookup hfields) with
      | table hinner =>
        cases hinner _ (mem_of_lookup hgiven) with
        | str hplain => exact hplain
    · cases hgiven

end AppPort
