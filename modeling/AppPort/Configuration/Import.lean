import AppPort.Configuration.Service
import AppPort.Configuration.Transfer
import Mathlib.Data.List.Lex
import Mathlib.Data.List.Sort

/-!
# Configuration import, whole

`parseExportDocument` and `importConfiguration`: an untrusted document is checked, the
target is read, and then each entry of the document is decided on and applied in turn, its
variables first, then credential bindings, webhook endpoints and schedules.
-/

namespace AppPort

open Effects

variable {τ : Type} [Timestamp τ]

/-! ## The document -/

def CONFIGURATION_EXPORT_FORMAT : String := "appport.configuration-export"

def CONFIGURATION_EXPORT_FORMAT_VERSION : Int := 1

structure ConfigurationExportVariable where
  name : String
  value : String
  required : Bool
  deriving DecidableEq, Repr

structure ConfigurationExportSecret where
  name : String
  required : Bool
  credentialRef : String
  deriving DecidableEq, Repr

structure ConfigurationExportWebhookEndpoint where
  url : String
  events : List String
  signingCredentialRef : Option String := none
  deriving DecidableEq, Repr

/-- A checked document. -/
structure ConfigurationExportDocument where
  exportedAt : String
  application : String
  environment : ConfigurationEnvironment
  servicesVersion : String
  variableEntries : List ConfigurationExportVariable
  secrets : List ConfigurationExportSecret
  webhookEndpoints : List ConfigurationExportWebhookEndpoint
  schedules : List ConfigurationExportSchedule

namespace ParseExport

/-- `fail`. -/
def fail {α : Type} (message : String) : Except JsError α :=
  .error (serviceError .invalidRequest ("Invalid configuration export: " ++ message))

/-- `isObject`. -/
def isObject : JsValue → Bool
  | .obj _ => true
  | _ => false

/-- `array`: an absent list is empty. -/
def array (doc : JsValue) (key : String) : Except JsError (List JsValue) :=
  match (doc.prop key).orElse (.arr []) with
  | .arr entries => if entries.all isObject then .ok entries
    else fail (key ++ " must be an array of objects")
  | _ => fail (key ++ " must be an array of objects")

/-- `text`. -/
def text (value : JsValue) (what : String) : Except JsError String :=
  match value with
  | .str s => if s = "" then fail (what ++ " must be a non-empty string") else .ok s
  | _ => fail (what ++ " must be a non-empty string")

/-- `ref`. -/
def ref (value : JsValue) (what : String) : Except JsError String := do
  let reference ← text value what
  if isCredentialRef reference then pure reference
  else fail (what ++ " must be a credential-ref:<id> reference")

/-- The forbidden fields of an entry. -/
def rejectFields (entry : JsValue) (message : String → String) (fields : List String) :
    Except JsError Unit :=
  fields.forM fun forbidden =>
    match entry.prop forbidden with
    | .undefined => pure ()
    | _ => throw (migrationError (message forbidden))

/-- The name of an entry of a list. -/
def at_ (key : String) (index : Nat) (field : String) : String :=
  key ++ "[" ++ toString index ++ "]" ++ field

def variableEntry (index : Nat) (entry : JsValue) : Except JsError ConfigurationExportVariable := do
  let name ← text (entry.prop "name") (at_ "variables" index ".name")
  let value ← text (entry.prop "value") (at_ "variables" index ".value")
  pure { name, value, required := (entry.prop "required").isTrue }

def secretEntry (index : Nat) (entry : JsValue) : Except JsError ConfigurationExportSecret := do
  rejectFields entry (fun forbidden => at_ "secrets" index "" ++ " carries \"" ++ forbidden ++
    "\": secret values are never imported. Attach the credential in the target with credential.attach.")
    ["value", "secret", "plaintext"]
  let name ← text (entry.prop "name") (at_ "secrets" index ".name")
  let credentialRef ← ref (entry.prop "credentialRef") (at_ "secrets" index ".credentialRef")
  pure { name, required := (entry.prop "required").isTrue, credentialRef }

/-- The events of an endpoint: some, and each with a name. -/
def endpointEvents (index : Nat) (events : JsValue) : Except JsError (List String) :=
  match eventNames events with
  | some (event :: rest) => .ok (event :: rest)
  | _ => fail (at_ "webhookEndpoints" index ".events must be a non-empty array of event names")

def endpointEntry (index : Nat) (entry : JsValue) :
    Except JsError ConfigurationExportWebhookEndpoint := do
  rejectFields entry (fun forbidden => at_ "webhookEndpoints" index "" ++ " carries \"" ++ forbidden ++
    "\": signing secrets are never imported; pass signingCredentialRef.") ["secret", "signingSecret"]
  let events ← endpointEvents index (entry.prop "events")
  let url ← text (entry.prop "url") (at_ "webhookEndpoints" index ".url")
  match entry.prop "signingCredentialRef" with
  | .undefined => pure { url, events }
  | value => do
    let signingCredentialRef ← ref value (at_ "webhookEndpoints" index ".signingCredentialRef")
    pure { url, events, signingCredentialRef := some signingCredentialRef }

/-- The payload of a schedule: an object, empty where there is none. -/
def schedulePayload (index : Nat) (payload : JsValue) : Except JsError JsValue :=
  match payload with
  | .undefined => .ok (.obj [])
  | .obj fields => .ok (.obj fields)
  | _ => fail (at_ "schedules" index ".payload must be an object")

def scheduleEntry (index : Nat) (entry : JsValue) : Except JsError ConfigurationExportSchedule := do
  let type ← text (entry.prop "type") (at_ "schedules" index ".type")
  let interval ← text (entry.prop "interval") (at_ "schedules" index ".interval")
  let payload ← schedulePayload index (entry.prop "payload")
  pure { type, interval, payload }

/-- Each entry of a list, by its index. -/
def entries {α : Type} (entry : Nat → JsValue → Except JsError α) :
    Nat → List JsValue → Except JsError (List α)
  | _, [] => .ok []
  | index, value :: rest => do
    let a ← entry index value
    let as ← entries entry (index + 1) rest
    pure (a :: as)

/-- The lists of a document. -/
def document (doc source : JsValue) (environment : ConfigurationEnvironment) :
    Except JsError ConfigurationExportDocument := do
  let variableValues ← array doc "variables"
  let variableEntries ← entries variableEntry 0 variableValues
  let secretValues ← array doc "secrets"
  let secrets ← entries secretEntry 0 secretValues
  let endpointValues ← array doc "webhookEndpoints"
  let webhookEndpoints ← entries endpointEntry 0 endpointValues
  let scheduleValues ← array doc "schedules"
  let schedules ← entries scheduleEntry 0 scheduleValues
  pure {
    exportedAt := ((doc.prop "exportedAt").text?).getD ""
    application := ((source.prop "application").text?).getD ""
    environment
    servicesVersion := ((source.prop "servicesVersion").text?).getD ""
    variableEntries, secrets, webhookEndpoints, schedules }

end ParseExport

open ParseExport in
/-- `parseExportDocument`, of a value. -/
def parseExportValue (doc : JsValue) : Except JsError ConfigurationExportDocument :=
  match doc with
  | .obj _ =>
    if (doc.prop "format").isText CONFIGURATION_EXPORT_FORMAT = false then
      fail ("format must be \"" ++ CONFIGURATION_EXPORT_FORMAT ++ "\"")
    else
      match doc.prop "formatVersion" with
      | .num 1 =>
        match doc.prop "source" with
        | .obj fields =>
          match environmentOf ((JsValue.obj fields).prop "environment") with
          | some environment => document doc (.obj fields) environment
          | none => fail "source.environment is invalid"
        | _ => fail "source is required"
      | version => fail ("formatVersion " ++ version.toText ++ " is not supported (this release reads " ++
          toString CONFIGURATION_EXPORT_FORMAT_VERSION ++ ")")
  | _ => fail "expected an object"

/-- `parseExportDocument`: a text is JSON. -/
def parseExportDocument (jsonParse : String → Option JsValue) (input : JsValue) :
    Except JsError ConfigurationExportDocument :=
  match input with
  | .str s =>
    match jsonParse s with
    | some doc => parseExportValue doc
    | none => ParseExport.fail "not valid JSON"
  | doc => parseExportValue doc

/-! ## The report -/

inductive ConfigurationImportKind where
  | variableEntry
  | secret
  | webhookEndpoint
  | schedule
  deriving DecidableEq, Repr

inductive ConfigurationImportAction where
  | create
  | update
  | unchanged
  | conflict
  | missing
  | skip
  deriving DecidableEq, Repr

/-- What is decided on an entry: `Omit<ConfigurationImportItem, 'applied'>` before it is
applied. -/
structure PlannedItem where
  kind : ConfigurationImportKind
  key : String
  action : ConfigurationImportAction
  reason : Option String := none
  deriving DecidableEq, Repr

structure ImportError where
  code : String
  message : String
  deriving DecidableEq, Repr

structure ConfigurationImportItem extends PlannedItem where
  applied : Bool
  error : Option ImportError := none
  deriving DecidableEq, Repr

structure ConfigurationMissingSecret where
  name : String
  required : Bool
  sourceCredentialRef : String
  deriving DecidableEq, Repr

/-- `summary`. -/
structure ImportSummary where
  create : Nat
  update : Nat
  unchanged : Nat
  conflict : Nat
  missing : Nat
  skip : Nat
  failed : Nat
  deriving DecidableEq, Repr

structure ConfigurationImportReport where
  dryRun : Bool
  overwrite : Bool
  environment : ConfigurationEnvironment
  items : List ConfigurationImportItem
  summary : ImportSummary
  missingSecrets : List ConfigurationMissingSecret

/-- The items of an action. -/
def countAction (action : ConfigurationImportAction) (items : List ConfigurationImportItem) : Nat :=
  (items.filter fun item => item.action == action).length

/-- `summary`, of the items. -/
def summaryOf (items : List ConfigurationImportItem) : ImportSummary where
  create := countAction .create items
  update := countAction .update items
  unchanged := countAction .unchanged items
  conflict := countAction .conflict items
  missing := countAction .missing items
  skip := countAction .skip items
  failed := (items.filter fun item => item.error.isSome).length

/-! ## Importing -/

structure ConfigurationImportOptions where
  principal : PrincipalInput
  dryRun : Bool := false
  overwrite : Bool := false
  environment : JsValue := .undefined

/-- What an import needs of the services. -/
structure ConfigurationTransferDependencies (τ : Type) where
  configuration : ConfigurationService
  webhooks : Option WebhookService := none
  schedules : Option (ScheduleService τ) := none
  /-- `JSON.parse`. -/
  jsonParse : String → Option JsValue
  /-- `error.code` of an error that is not the services' own; `IMPORT_FAILED` without one. -/
  codeOf : JsError → String := fun _ => "IMPORT_FAILED"

/-- `[...events].sort()`. -/
def sortedTexts (texts : List String) : List String :=
  texts.insertionSort fun a b => jsUnits a ≤ jsUnits b

/-- What an import reads of the target before it decides anything. -/
structure ImportTarget (τ : Type) where
  environment : ConfigurationEnvironment
  variableViews : List (ConfigurationVariableView τ)
  secretViews : List (ConfigurationSecretView τ)
  endpoints : List (WebhookEndpoint τ)
  schedules : List (JobSchedule τ)

/-- `new Map(…).get(name)`: the last of that name. -/
def ImportTarget.variableView? (target : ImportTarget τ) (name : String) :
    Option (ConfigurationVariableView τ) :=
  target.variableViews.reverse.find? fun v => v.name == name

def ImportTarget.secretView? (target : ImportTarget τ) (name : String) :
    Option (ConfigurationSecretView τ) :=
  target.secretViews.reverse.find? fun s => s.name == name

namespace ConfigurationTransferDependencies

variable (deps : ConfigurationTransferDependencies τ)

/-- `errorOf`. -/
def errorOf (error : JsError) : ImportError :=
  match error with
  | .authority e => ⟨e.code.text, e.message⟩
  | error => ⟨deps.codeOf error, error.message⟩

/-- `apply`: only a creation or an update is written, and nothing in a dry run; a failed
write is reported on its item. -/
def apply (dryRun : Bool) (planned : PlannedItem) (write : Svc τ Unit) :
    Svc τ ConfigurationImportItem :=
  if dryRun || (planned.action != .create && planned.action != .update) then
    pure { planned with applied := false }
  else
    write.settleWith fun r =>
      match r with
      | .ok _ => pure { planned with applied := true }
      | .error error => pure { planned with applied := false, error := some (deps.errorOf error) }

/-- The input of a write of a variable. -/
def variableInput (environment : ConfigurationEnvironment) (entry : ConfigurationExportVariable) :
    VariableInput where
  environment := .str environment.text
  name := .str entry.name
  value := .str entry.value
  required := some entry.required

/-- One variable of the document. -/
def importVariable (target : ImportTarget τ) (dryRun overwrite : Bool) (principal : VerifiedPrincipal)
    (entry : ConfigurationExportVariable) : Svc τ ConfigurationImportItem :=
  let existing := target.variableView? entry.name
  if (target.secretView? entry.name).isSome then
    deps.apply dryRun { kind := .variableEntry, key := entry.name, action := .conflict
                        reason := some "the target binds this name to a credential" } (pure ())
  else
    match existing with
    | none =>
      deps.apply dryRun { kind := .variableEntry, key := entry.name, action := .create } (do
        let _ ← deps.configuration.createVariable (variableInput target.environment entry) (.of principal)
        pure ())
    | some existing =>
      if existing.value = entry.value ∧ existing.required = entry.required then
        deps.apply dryRun { kind := .variableEntry, key := entry.name, action := .unchanged } (pure ())
      else if overwrite = false then
        deps.apply dryRun { kind := .variableEntry, key := entry.name, action := .conflict
                            reason := some "the target has a different value or required flag" } (pure ())
      else
        deps.apply dryRun { kind := .variableEntry, key := entry.name, action := .update } (do
          let _ ← deps.configuration.updateVariable (variableInput target.environment entry) (.of principal)
          pure ())

/-- One credential binding of the document, and whether the target misses it. -/
def importSecret (target : ImportTarget τ) (dryRun : Bool) (entry : ConfigurationExportSecret) :
    Svc τ (ConfigurationImportItem × Option ConfigurationMissingSecret) :=
  if (target.variableView? entry.name).isSome then do
    let item ← deps.apply dryRun { kind := .secret, key := entry.name, action := .conflict
                                   reason := some "the target uses this name for a variable" } (pure ())
    pure (item, none)
  else
    match target.secretView? entry.name with
    | some existing => do
      let item ← deps.apply dryRun {
        kind := .secret, key := entry.name, action := .unchanged
        reason := if existing.credentialRef = entry.credentialRef then none
          else some "bound in the target to its own credential reference" } (pure ())
      pure (item, none)
    | none => do
      let item ← deps.apply dryRun {
        kind := .secret, key := entry.name, action := .missing
        reason := some "attach the credential in the target with credential.attach" } (pure ())
      pure (item, some { name := entry.name, required := entry.required
                         sourceCredentialRef := entry.credentialRef })

/-- The input an endpoint is registered with. -/
def endpointInput (entry : ConfigurationExportWebhookEndpoint) (signingCredentialRef : String) :
    CreateWebhookEndpointInput where
  url := .str entry.url
  events := .arr ((sortedTexts entry.events).map JsValue.str)
  signingCredentialRef := .str signingCredentialRef

/-- Register an endpoint of the document. -/
def createExportedEndpoint (hooks : WebhookService) (principal : VerifiedPrincipal)
    (entry : ConfigurationExportWebhookEndpoint) (signingCredentialRef : String) : Svc τ Unit := do
  let _ ← hooks.createWebhookEndpoint (endpointInput entry signingCredentialRef) (.of principal)
  pure ()

/-- One webhook endpoint of the document. -/
def importEndpoint (hooks : WebhookService) (target : ImportTarget τ) (dryRun overwrite : Bool)
    (principal : VerifiedPrincipal) (entry : ConfigurationExportWebhookEndpoint) :
    Svc τ ConfigurationImportItem :=
  let existing := target.endpoints.find? fun candidate => candidate.url == entry.url
  let sameEvents := existing.any fun e => sortedTexts e.events == sortedTexts entry.events
  let signingCredentialRef := entry.signingCredentialRef <|>
    existing.bind WebhookEndpoint.signingCredentialRef
  if sameEvents then
    deps.apply dryRun { kind := .webhookEndpoint, key := entry.url, action := .unchanged } (pure ())
  else
    match keepPresent signingCredentialRef, existing with
    | none, _ =>
      deps.apply dryRun {
        kind := .webhookEndpoint, key := entry.url, action := .skip
        reason := some "exported without a signing credential reference; register it with one" } (pure ())
    | some ref, none =>
      deps.apply dryRun { kind := .webhookEndpoint, key := entry.url, action := .create }
        (createExportedEndpoint hooks principal entry ref)
    | some ref, some existing =>
      if overwrite = false then
        deps.apply dryRun {
          kind := .webhookEndpoint, key := entry.url, action := .conflict
          reason := some "the target endpoint subscribes to different events" } (pure ())
      else
        deps.apply dryRun {
          kind := .webhookEndpoint, key := entry.url, action := .update
          reason := some "registers a new endpoint and disables the old one" } (do
            createExportedEndpoint hooks principal entry ref
            let _ ← hooks.disableWebhookEndpoint (τ := τ) { id := existing.id } (.of principal)
            pure ())

/-- One schedule of the document. -/
def importSchedule (scheduler : ScheduleService τ) (target : ImportTarget τ) (dryRun overwrite : Bool)
    (principal : VerifiedPrincipal) (entry : ConfigurationExportSchedule) :
    Svc τ ConfigurationImportItem :=
  let key := scheduleKey entry.type entry.interval
  let sameSlot := target.schedules.filter fun candidate =>
    scheduleKey candidate.type candidate.interval == key
  if sameSlot.any (fun candidate =>
      (payloadOf candidate.payload).stableJson == entry.payload.stableJson) then
    deps.apply dryRun { kind := .schedule, key, action := .unchanged } (pure ())
  else if sameSlot.isEmpty then
    deps.apply dryRun { kind := .schedule, key, action := .create }
      (scheduler.createExported entry (.of principal))
  else if overwrite = false then
    deps.apply dryRun { kind := .schedule, key, action := .conflict
                        reason := some "the target has this schedule with a different payload" } (pure ())
  else
    deps.apply dryRun { kind := .schedule, key, action := .update
                        reason := some "creates the schedule and cancels the one it replaces" } (do
      scheduler.createExported entry (.of principal)
      Task.forEach (fun replaced => do
        let _ ← scheduler.disable principal.tenantId replaced.id (.of principal)
        pure ()) sameSlot)

/-- The items of one kind, in the order of the document. -/
def importEach {α β : Type} (importOne : α → Svc τ β) : List α → Svc τ (List β)
  | [] => pure []
  | entry :: rest => do
    let item ← importOne entry
    let items ← importEach importOne rest
    pure (item :: items)

/-- The entries of a kind that is not mounted in the target. -/
def skipped {α : Type} (kind : ConfigurationImportKind) (key : α → String) (reason : String)
    (entries : List α) : List ConfigurationImportItem :=
  entries.map fun entry => { kind, key := key entry, action := .skip, reason := some reason
                             applied := false }

/-- The endpoints of the document. -/
def importEndpoints (target : ImportTarget τ) (dryRun overwrite : Bool) (principal : VerifiedPrincipal)
    (entries : List ConfigurationExportWebhookEndpoint) : Svc τ (List ConfigurationImportItem) :=
  match deps.webhooks with
  | none => pure (skipped .webhookEndpoint ConfigurationExportWebhookEndpoint.url
      "webhooks are not mounted in the target" entries)
  | some hooks => importEach (deps.importEndpoint hooks target dryRun overwrite principal) entries

/-- The schedules of the document. -/
def importSchedules (target : ImportTarget τ) (dryRun overwrite : Bool) (principal : VerifiedPrincipal)
    (entries : List ConfigurationExportSchedule) : Svc τ (List ConfigurationImportItem) :=
  match deps.schedules with
  | none => pure (skipped .schedule (fun entry => scheduleKey entry.type entry.interval)
      "schedules are not mounted in the target" entries)
  | some scheduler => importEach (deps.importSchedule scheduler target dryRun overwrite principal) entries

/-- `readEndpoints`. -/
def readEndpoints (gateway : ServiceGateway) (principal : VerifiedPrincipal) :
    Svc τ (List (WebhookEndpoint τ)) :=
  gateway.execute "webhooks.read" (.of principal)
    { type := "webhook_endpoint", tenantId := principal.tenantId } { service := "webhook_endpoint" }
    fun context _ => do
      let endpoints : List (WebhookEndpoint τ) ← (WebhookOp.listEndpoints principal.tenantId).perform
      pure (endpoints.filter fun endpoint => endpoint.applicationId == some context.application)

/-- The endpoints an import compares with: none are read for none. -/
def readTargetEndpoints (gateway : ServiceGateway) (principal : VerifiedPrincipal)
    (document : ConfigurationExportDocument) : Svc τ (List (WebhookEndpoint τ)) :=
  if deps.webhooks.isSome && !document.webhookEndpoints.isEmpty then do
    let endpoints : List (WebhookEndpoint τ) ← readEndpoints gateway principal
    pure (endpoints.filter fun endpoint => endpoint.disabledAt.isNone)
  else pure []

/-- The schedules an import compares with. -/
def readTargetSchedules (principal : VerifiedPrincipal) (document : ConfigurationExportDocument) :
    Svc τ (List (JobSchedule τ)) :=
  match deps.schedules with
  | none => pure []
  | some scheduler =>
    if document.schedules.isEmpty then pure []
    else do
      let listed ← scheduler.list principal.tenantId (.of principal) none
      pure (listed.filter fun s => s.enabled)

/-- The target as it is before anything is decided. -/
def readTarget (principal : VerifiedPrincipal) (document : ConfigurationExportDocument)
    (environment : ConfigurationEnvironment) : Svc τ (ImportTarget τ) := do
  let gateway ← check deps.configuration.gateway
  let current ← deps.configuration.list { environment := .str environment.text } (.of principal)
  let endpoints ← deps.readTargetEndpoints gateway principal document
  let schedules ← deps.readTargetSchedules principal document
  pure { environment, variableViews := current.variableViews, secretViews := current.secretViews
         endpoints, schedules }

/-- Decide on each entry of the document, and apply it. -/
def importDocument (target : ImportTarget τ) (dryRun overwrite : Bool) (principal : VerifiedPrincipal)
    (document : ConfigurationExportDocument) : Svc τ ConfigurationImportReport := do
  let variableItems ← importEach (deps.importVariable target dryRun overwrite principal)
    document.variableEntries
  let secretItems ← importEach (deps.importSecret target dryRun) document.secrets
  let endpointItems ← deps.importEndpoints target dryRun overwrite principal document.webhookEndpoints
  let scheduleItems ← deps.importSchedules target dryRun overwrite principal document.schedules
  let items := variableItems ++ secretItems.map Prod.fst ++ endpointItems ++ scheduleItems
  pure { dryRun, overwrite, environment := target.environment, items, summary := summaryOf items
         missingSecrets := secretItems.filterMap Prod.snd }

/-- The environment an import is for. -/
def importEnvironment (document : ConfigurationExportDocument) (environment : JsValue) :
    Except JsError ConfigurationEnvironment :=
  match environmentOf (environment.orElse (.str document.environment.text)) with
  | some environment => .ok environment
  | none => .error (serviceError .invalidRequest "Invalid environment")

/-- `importConfiguration`. -/
def importConfiguration (input : JsValue) (options : ConfigurationImportOptions) :
    Svc τ ConfigurationImportReport := do
  let principal ← requireVerifiedPrincipal options.principal
  let document ← check (parseExportDocument deps.jsonParse input)
  let environment ← check (importEnvironment document options.environment)
  let target ← deps.readTarget principal document environment
  deps.importDocument target options.dryRun options.overwrite principal document

end ConfigurationTransferDependencies

end AppPort
