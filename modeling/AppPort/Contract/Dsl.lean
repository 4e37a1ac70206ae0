import AppPort.Authority.Basic
import AppPort.Lib.Toml

/-!
# The contract file

`parseAppPortConfigText`: `appport.toml` is TOML with `use` lines. A preprocessor takes the
`use` lines out, line by line, the rest is read as TOML, and `normalizeConfig` checks what
was read and fills in its defaults.
-/

namespace AppPort

open Toml

/-! ## The contract -/

inductive AppPortCapabilityName where
  | api
  | webhooks
  | jobs
  | secrets
  | notifications
  | files
  deriving DecidableEq, Repr

namespace AppPortCapabilityName

def text : AppPortCapabilityName → String
  | api => "api"
  | webhooks => "webhooks"
  | jobs => "jobs"
  | secrets => "secrets"
  | notifications => "notifications"
  | files => "files"

def all : List AppPortCapabilityName := [api, webhooks, jobs, secrets, notifications, files]

/-- The capability of that name. -/
def named (name : String) : Option AppPortCapabilityName := all.find? fun c => c.text == name

end AppPortCapabilityName

inductive DeploymentMode where
  | local_
  | managed
  | selfHosted
  deriving DecidableEq, Repr

inductive StorageMode where
  | durable
  | memory
  deriving DecidableEq, Repr

inductive TenantMode where
  | required
  | optional
  | single
  deriving DecidableEq, Repr

inductive AuthorizationDefault where
  | allow
  | deny
  deriving DecidableEq, Repr

structure ApplicationContract where
  name : String
  description : String
  deriving DecidableEq, Repr

structure DeploymentContract where
  mode : DeploymentMode
  storage : StorageMode
  distributed : Bool
  deriving DecidableEq, Repr

structure StateContract where
  enabled : Bool
  stateNamespace : String
  deriving DecidableEq, Repr

structure TenantContract where
  mode : TenantMode
  default : Option String
  deriving DecidableEq, Repr

structure HttpContract where
  enabled : Bool
  host : String
  port : Int
  deriving DecidableEq, Repr

structure CorsContract where
  enabled : Bool
  origins : List String
  deriving DecidableEq, Repr

/-- `capabilities`: a flag for each. -/
structure CapabilityFlags where
  api : Bool
  webhooks : Bool
  jobs : Bool
  secrets : Bool
  notifications : Bool
  files : Bool
  deriving DecidableEq, Repr

/-- `capabilities[name]`. -/
def CapabilityFlags.has (flags : CapabilityFlags) : AppPortCapabilityName → Bool
  | .api => flags.api
  | .webhooks => flags.webhooks
  | .jobs => flags.jobs
  | .secrets => flags.secrets
  | .notifications => flags.notifications
  | .files => flags.files

structure ApiContract where
  enabled : Bool
  keysEnabled : Bool
  deriving DecidableEq, Repr

structure WebhooksContract where
  enabled : Bool
  deliveryEnabled : Bool
  retries : Int
  timeoutMs : Int
  /-- `events.allowed`. -/
  allowed : List String
  deriving DecidableEq, Repr

structure JobsContract where
  enabled : Bool
  executionEnabled : Bool
  maxAttempts : Int
  /-- `types`: each with its `timeout_ms`. -/
  types : List (String × Int)
  deriving DecidableEq, Repr

structure NotificationsContract where
  enabled : Bool
  defaultPriority : String
  defaultChannel : String
  maxAttempts : Int
  deriving DecidableEq, Repr

structure EventsContract where
  enabled : Bool
  streamingEnabled : Bool
  deriving DecidableEq, Repr

structure AuthorizationContract where
  enabled : Bool
  default : AuthorizationDefault
  deriving DecidableEq, Repr

structure DevelopmentContract where
  mail : String
  webhooks : String
  jobs : String
  deriving DecidableEq, Repr

/-- `AppPortConfig`, less the fields that have one value only. -/
structure AppPortConfig where
  application : ApplicationContract
  deployment : DeploymentContract
  state : StateContract
  tenant : TenantContract
  http : HttpContract
  cors : CorsContract
  capabilities : CapabilityFlags
  api : ApiContract
  webhooks : WebhooksContract
  jobs : JobsContract
  secretsEnabled : Bool
  notifications : NotificationsContract
  filesEnabled : Bool
  events : EventsContract
  authorization : AuthorizationContract
  observabilityEnabled : Bool
  lifecycleManaged : Bool
  development : DevelopmentContract
  deriving DecidableEq, Repr

structure AppPortConfigError where
  file : String
  property : String
  value : Value
  expected : String

/-- The message of the error; `stringify` is `JSON.stringify`. -/
def AppPortConfigError.message (stringify : Value → String) (e : AppPortConfigError) : String :=
  e.file ++ ": invalid " ++ e.property ++ " (" ++ stringify e.value ++ "); expected " ++ e.expected

/-! ## Checking values -/

namespace NormalizeConfig

variable (file : String)

/-- `object`: a date is an object too, and one without fields. -/
def object (value : Value) (property : String) : Except AppPortConfigError Table :=
  match value with
  | .table fields => .ok fields
  | .date _ => .ok []
  | value => .error ⟨file, property, value, "a table"⟩

/-- `object`, of a value that may be absent. -/
def objectOf (value : Option Value) (property : String) : Except AppPortConfigError Table :=
  match value with
  | none => .ok []
  | some value => object file value property

/-- `str`. -/
def str (value : Option Value) (property fallback : String) : Except AppPortConfigError String :=
  match value with
  | none => .ok fallback
  | some (.str s) =>
    if isBlank s then .error ⟨file, property, .str s, "a non-empty string"⟩ else .ok s
  | some value => .error ⟨file, property, value, "a non-empty string"⟩

/-- `bool`. -/
def bool (value : Option Value) (property : String) (fallback : Bool) :
    Except AppPortConfigError Bool :=
  match value with
  | none => .ok fallback
  | some (.bool b) => .ok b
  | some value => .error ⟨file, property, value, "true or false"⟩

/-- `Number.MAX_SAFE_INTEGER`. -/
def maxSafeInteger : Int := 9007199254740991

/-- `integer`. -/
def integer (value : Option Value) (property : String) (fallback min : Int)
    (max : Int := maxSafeInteger) : Except AppPortConfigError Int :=
  match value with
  | none => .ok fallback
  | some (.num n) =>
    if min ≤ n ∧ n ≤ max then .ok n
    else .error ⟨file, property, .num n, "an integer from " ++ toString min ++ " to " ++ toString max⟩
  | some value =>
    .error ⟨file, property, value, "an integer from " ++ toString min ++ " to " ++ toString max⟩

/-- The strings of a list of strings. -/
def stringsOf : List Value → Option (List String)
  | [] => some []
  | .str s :: rest => (stringsOf rest).map (s :: ·)
  | _ => none

/-- `stringArray`. -/
def stringArray (value : Option Value) (property : String) (fallback : List String) :
    Except AppPortConfigError (List String) :=
  match value with
  | none => .ok fallback
  | some (.arr entries) =>
    match stringsOf entries with
    | some texts => .ok texts
    | none => .error ⟨file, property, .arr entries, "an array of strings"⟩
  | some value => .error ⟨file, property, value, "an array of strings"⟩

/-- `enumeration`: the allowed texts, each with what it stands for. -/
def enumeration {α : Type} (value : Option Value) (property : String) (allowed : List (String × α))
    (fallback : α) : Except AppPortConfigError α :=
  match value with
  | none => .ok fallback
  | some (.str s) =>
    match allowed.lookup s with
    | some a => .ok a
    | none => .error ⟨file, property, .str s, ", ".intercalate (allowed.map Prod.fst)⟩
  | some value => .error ⟨file, property, value, ", ".intercalate (allowed.map Prod.fst)⟩

/-- A table of the document; an absent one is empty. -/
def section_ (raw : Table) (name : String) : Except AppPortConfigError Table :=
  objectOf file (raw.lookup name) name

/-- A capability is used where a line says so, or where its table does not say otherwise. -/
def useDeclared (raw : Table) (uses : List AppPortCapabilityName) :
    List AppPortCapabilityName → Except AppPortConfigError (List AppPortCapabilityName)
  | [] => .ok uses
  | capability :: rest => do
    let fields ← section_ file raw capability.text
    let enabled ← bool file (fields.lookup "enabled") (capability.text ++ ".enabled")
      (uses.contains capability || (raw.lookup capability.text).isSome)
    useDeclared raw (if enabled then uses.insert capability else uses) rest

/-- The types of jobs. -/
def jobTypes : Table → Except AppPortConfigError (List (String × Int))
  | [] => .ok []
  | (type, value) :: rest => do
    let config ← object file value ("jobs.types." ++ type)
    let timeout ← integer file (config.lookup "timeout_ms") ("jobs.types." ++ type ++ ".timeout_ms")
      30000 1
    let types ← jobTypes rest
    -- an assignment to this property is no entry
    pure (if type = "__proto__" then types else (type, timeout) :: types)

/-- `typeof api.keys === 'object'`. -/
def isObjectValue : Value → Bool
  | .table _ | .date _ | .arr _ => true
  | _ => false

/-- `api.keys`, as a table. -/
def apiKeysOf (api : Table) : Except AppPortConfigError Table :=
  match api.lookup "keys" with
  | some value => if isObjectValue value then object file value "api.keys" else .ok []
  | none => .ok []

/-- `Array.isArray(webhooks.events)`: the list an older file has there. -/
def legacyWebhookEvents (webhooks : Table) : Option Value :=
  match webhooks.lookup "events" with
  | some (.arr entries) => some (.arr entries)
  | _ => none

/-- `webhooks.events`, as a table; an older file has a list there. -/
def webhookEventsOf (webhooks : Table) : Except AppPortConfigError Table :=
  if (legacyWebhookEvents webhooks).isSome then .ok []
  else objectOf file (webhooks.lookup "events") "webhooks.events"

/-- The checked tables of a document. -/
structure Sections where
  application : Table
  deployment : Table
  state : Table
  tenant : Table
  http : Table
  cors : Table
  api : Table
  apiKeys : Table
  webhooks : Table
  webhookDelivery : Table
  webhookEvents : Table
  jobs : Table
  jobExecution : Table
  jobTypes : Table
  notifications : Table
  files : Table
  events : Table
  streaming : Table
  authorization : Table
  observability : Table
  lifecycle : Table
  development : Table

/-- Every table of a document is one. -/
def sections (raw : Table) : Except AppPortConfigError Sections := do
  let application ← section_ file raw "application"
  let deployment ← section_ file raw "deployment"
  let state ← section_ file raw "state"
  let tenant ← section_ file raw "tenant"
  let http ← section_ file raw "http"
  let cors ← section_ file raw "cors"
  let api ← section_ file raw "api"
  let apiKeys ← apiKeysOf file api
  let webhooks ← section_ file raw "webhooks"
  let webhookDelivery ← objectOf file (webhooks.lookup "delivery") "webhooks.delivery"
  let webhookEvents ← webhookEventsOf file webhooks
  let jobs ← section_ file raw "jobs"
  let jobExecution ← objectOf file (jobs.lookup "execution") "jobs.execution"
  let jobTypes ← objectOf file (jobs.lookup "types") "jobs.types"
  let notifications ← section_ file raw "notifications"
  let files ← section_ file raw "files"
  let events ← section_ file raw "events"
  let streaming ← objectOf file (events.lookup "streaming") "events.streaming"
  let authorization ← section_ file raw "authorization"
  let observability ← section_ file raw "observability"
  let lifecycle ← section_ file raw "lifecycle"
  let development ← section_ file raw "development"
  pure { application, deployment, state, tenant, http, cors, api, apiKeys, webhooks, webhookDelivery
         webhookEvents, jobs, jobExecution, jobTypes, notifications, files, events, streaming
         authorization, observability, lifecycle, development }

/-- No scopes are accepted. -/
def rejectScopes (scopes : List String) : Except AppPortConfigError Unit :=
  if scopes.isEmpty then .ok ()
  else .error ⟨file, "api.keys.scopes", .arr (scopes.map Value.str),
    "no scopes: API keys identify callers and AuthBoundry authorizes capabilities (old: API key + " ++
    "scopes -> authority; new: API key -> identity, AuthBoundry -> authorization; see " ++
    "docs/AUTHORITY.md#migration)"⟩

def deploymentModes : List (String × DeploymentMode) :=
  [("local", .local_), ("managed", .managed), ("self-hosted", .selfHosted)]

/-- `tenant.default`, if it is given. -/
def tenantDefaultOf (value : Option Value) : Except AppPortConfigError (Option String) :=
  match value with
  | none => .ok none
  | some value => (str file (some value) "tenant.default" "").map some

/-- `uses.has('files') || bool(…)`: the table is looked at only where no line uses files. -/
def filesEnabledOf (used : Bool) (value : Option Value) : Except AppPortConfigError Bool :=
  if used then .ok true else bool file value "files.enabled" false

/-- The contract of a document, its tables and the capabilities it uses at hand. -/
def contract (raw : Table) (s : Sections) (uses : List AppPortCapabilityName) (name : String)
    (types : List (String × Int)) (maxAttempts : Int) : Except AppPortConfigError AppPortConfig := do
  let _ ← enumeration file (raw.lookup "version") "version" [("1", ())] ()
  let description ← str file (s.application.lookup "description") "application.description"
    "AppPort application"
  let _ ← enumeration file (s.application.lookup "runtime") "application.runtime" [("node", ())] ()
  let mode ← enumeration file (s.deployment.lookup "mode") "deployment.mode" deploymentModes .local_
  let storage ← enumeration file (s.deployment.lookup "storage") "deployment.storage"
    [("durable", StorageMode.durable), ("memory", .memory)] .durable
  let distributed ← bool file (s.deployment.lookup "distributed") "deployment.distributed" true
  let stateEnabled ← bool file (s.state.lookup "enabled") "state.enabled" true
  let _ ← enumeration file (s.state.lookup "authority") "state.authority" [("feltdb", ())] ()
  let stateNamespace ← str file (s.state.lookup "namespace") "state.namespace" name
  let tenantMode ← enumeration file (s.tenant.lookup "mode") "tenant.mode"
    [("required", TenantMode.required), ("optional", .optional), ("single", .single)] .required
  let tenantDefault ← tenantDefaultOf file (s.tenant.lookup "default")
  let httpEnabled ← bool file (s.http.lookup "enabled") "http.enabled" false
  let host ← str file (s.http.lookup "host") "http.host" "127.0.0.1"
  let port ← integer file (s.http.lookup "port") "http.port" 8787 0 65535
  let corsEnabled ← bool file (s.cors.lookup "enabled") "cors.enabled" false
  let origins ← stringArray file (s.cors.lookup "origins") "cors.origins" ["*"]
  let keysEnabled ← bool file (s.apiKeys.lookup "enabled" <|> s.api.lookup "keys") "api.keys.enabled"
    (uses.contains .api)
  let deliveryEnabled ← bool file (s.webhookDelivery.lookup "enabled") "webhooks.delivery.enabled"
    (uses.contains .webhooks)
  let retries ← integer file (s.webhookDelivery.lookup "retries") "webhooks.delivery.retries" 3 0
  let timeoutMs ← integer file (s.webhookDelivery.lookup "timeout_ms") "webhooks.delivery.timeout_ms"
    10000 1
  let allowed ← stringArray file (s.webhookEvents.lookup "allowed" <|> legacyWebhookEvents s.webhooks)
    "webhooks.events.allowed" []
  let executionEnabled ← bool file (s.jobExecution.lookup "enabled") "jobs.execution.enabled"
    (uses.contains .jobs)
  let defaultPriority ← enumeration file (s.notifications.lookup "default_priority")
    "notifications.default_priority"
    [("low", "low"), ("normal", "normal"), ("high", "high"), ("urgent", "urgent")] "normal"
  let defaultChannel ← enumeration file (s.notifications.lookup "default_channel")
    "notifications.default_channel" [("in-app", "in-app"), ("browser", "browser")] "in-app"
  let notificationDelivery ← objectOf file (s.notifications.lookup "delivery") "notifications.delivery"
  let notificationAttempts ← integer file (notificationDelivery.lookup "max_attempts")
    "notifications.delivery.max_attempts" 5 1
  let filesEnabled ← filesEnabledOf file (uses.contains .files) (s.files.lookup "enabled")
  let eventsEnabled ← bool file (s.events.lookup "enabled") "events.enabled" false
  let streamingEnabled ← bool file (s.streaming.lookup "enabled") "events.streaming.enabled" false
  let _ ← enumeration file (s.streaming.lookup "transport") "events.streaming.transport"
    [("sse", ())] ()
  let authorizationEnabled ← bool file (s.authorization.lookup "enabled") "authorization.enabled"
    (uses.contains .api)
  let authorizationDefault ← enumeration file (s.authorization.lookup "default")
    "authorization.default" [("allow", AuthorizationDefault.allow), ("deny", .deny)] .deny
  let observabilityEnabled ← bool file (s.observability.lookup "enabled") "observability.enabled" true
  let lifecycleManaged ← bool file (s.lifecycle.lookup "managed") "lifecycle.managed" true
  let mail ← str file (s.development.lookup "mail") "development.mail" "local"
  let webhooks ← str file (s.development.lookup "webhooks") "development.webhooks" "local"
  let jobs ← str file (s.development.lookup "jobs") "development.jobs" "local"
  pure {
    application := { name, description }
    deployment := { mode, storage, distributed }
    state := { enabled := stateEnabled, stateNamespace }
    tenant := { mode := tenantMode, default := tenantDefault }
    http := { enabled := httpEnabled, host, port }
    cors := { enabled := corsEnabled, origins }
    capabilities := {
      api := uses.contains .api, webhooks := uses.contains .webhooks, jobs := uses.contains .jobs
      secrets := uses.contains .secrets, notifications := uses.contains .notifications
      files := uses.contains .files }
    api := { enabled := uses.contains .api, keysEnabled }
    webhooks := { enabled := uses.contains .webhooks, deliveryEnabled, retries, timeoutMs, allowed }
    jobs := { enabled := uses.contains .jobs, executionEnabled, maxAttempts, types }
    secretsEnabled := uses.contains .secrets
    notifications := { enabled := uses.contains .notifications, defaultPriority, defaultChannel
                       maxAttempts := notificationAttempts }
    filesEnabled
    events := { enabled := eventsEnabled, streamingEnabled }
    authorization := { enabled := authorizationEnabled, default := authorizationDefault }
    observabilityEnabled
    lifecycleManaged
    development := { mail, webhooks, jobs } }

end NormalizeConfig

open NormalizeConfig in
/-- `normalizeConfig`. -/
def normalizeConfig (raw : Table) (uses : List AppPortCapabilityName) (file : String) :
    Except AppPortConfigError AppPortConfig := do
  let s ← sections file raw
  let uses ← useDeclared file raw uses AppPortCapabilityName.all
  let name ← str file (s.application.lookup "name") "application.name" "app"
  let declaredScopes ← stringArray file (s.apiKeys.lookup "scopes" <|> s.api.lookup "scopes")
    "api.keys.scopes" []
  rejectScopes file declaredScopes
  let types ← jobTypes file s.jobTypes
  let maxAttempts ← integer file (s.jobExecution.lookup "max_attempts" <|> s.jobs.lookup "max_attempts")
    "jobs.execution.max_attempts" 3 1
  contract file raw s uses name types maxAttempts

/-! ## The preprocessor -/

/-- A character of a capability's name. -/
def isUseChar (c : Char) : Bool := c.isLower || c.isDigit || c == '_' || c == '-'

/-- `/^use\s+([a-z][a-z0-9_-]*)(?:\s*\{)?$/`: the name, and whether a block opens. -/
def useLine (line : String) : Option (String × Bool) :=
  match line.toList with
  | 'u' :: 's' :: 'e' :: space :: rest =>
    let word := rest.dropWhile isJsWhitespace
    let tail := word.dropWhile isUseChar
    if isJsWhitespace space && word.head?.any Char.isLower then
      if tail = [] then some (String.ofList word, false)
      else if tail.dropWhile isJsWhitespace = ['\x7b'] then
        some (String.ofList (word.takeWhile isUseChar), true)
      else none
    else none
  | _ => none

/-- What the preprocessor holds between two lines. -/
structure UseState where
  uses : List AppPortCapabilityName := []
  tomlLines : List String := []
  useBlock : Option AppPortCapabilityName := none
  deriving DecidableEq, Repr

/-- The names of the capabilities, as an error gives them. -/
def capabilityNames : String := "api, webhooks, jobs, secrets, notifications, or files"

/-- One line. -/
def readUseLine (file : String) (s : UseState) (rawLine : String) :
    Except AppPortConfigError UseState :=
  let line := jsTrim rawLine
  match s.useBlock with
  | some capability =>
    if line = "\x7d" then .ok { s with useBlock := none }
    else if line ≠ "" ∧ line.toList.head? ≠ some '#' then
      .ok { s with tomlLines := s.tomlLines ++ [header capability.text, rawLine] }
    else .ok s
  | none =>
    match useLine line with
    | some (name, opens) =>
      match AppPortCapabilityName.named name with
      | none => .error ⟨file, "use", .str name, capabilityNames⟩
      | some capability =>
        .ok { s with uses := s.uses.insert capability
                     useBlock := if opens then some capability else none }
    | none => .ok { s with tomlLines := s.tomlLines ++ [rawLine] }

def readUseLines (file : String) (s : UseState) (lines : List String) :
    Except AppPortConfigError UseState :=
  lines.foldlM (readUseLine file) s

/-- What the preprocessor has read is read as TOML. -/
def readToml (parse : Parser) (file : String) (s : UseState) :
    Except AppPortConfigError AppPortConfig :=
  match parse (joinLines s.tomlLines) with
  | .ok raw => normalizeConfig raw s.uses file
  | .error error => .error ⟨file, "syntax", .str error, "valid AppPort TOML"⟩

/-- `parseAppPortConfigText`; `parse` is `TOML.parse`. -/
def parseAppPortConfigText (parse : Parser) (source file : String) :
    Except AppPortConfigError AppPortConfig := do
  let s ← readUseLines file {} (splitLines source)
  readToml parse file s

end AppPort
