import AppPort.Authority.Custody
import AppPort.Schedules.Service
import AppPort.Webhooks.Service

/-!
# The configuration service

`ConfigurationService`, method by method: variables, credential bindings, and
`storeCredential`, which hands a value to the host's custody and then points a binding at
its reference. Below it stands the metadata store of stored credentials, whose two methods
are each several calls of the database.
-/

namespace AppPort

open Effects

variable {τ : Type} [Timestamp τ]

/-! ## Checks -/

/-- `^[A-Z][A-Z0-9_]*$`. -/
def isConfigurationName (name : String) : Bool :=
  match name.toList with
  | [] => false
  | first :: rest => first.isUpper && rest.all fun c => c.isUpper || c.isDigit || c == '_'

/-- `validateName`. -/
def validateName (name : JsValue) : Except JsError String :=
  match name with
  | .str s => if isConfigurationName s then .ok s
    else .error (.validation "Name must be an uppercase configuration identifier")
  | _ => .error (.validation "Name must be an uppercase configuration identifier")

/-- `validateVariable`, of the value. -/
def validateVariableValue (value : JsValue) : Except JsError String :=
  match value with
  | .str s => if s = "" then .error (.validation "Value is required") else .ok s
  | _ => .error (.validation "Value is required")

/-- `rejectRawSecret`, of the property `value`. -/
def rejectRawSecret (input : JsValue) : Except JsError Unit :=
  match input.prop "value" with
  | .undefined => .ok ()
  | _ => .error (migrationError ("Secret values are no longer stored in configuration. " ++
      "Register the credential with AuthBoundry and pass credentialRef: \"credential-ref:<id>\"."))

def MAX_CREDENTIAL_VALUE_LENGTH : Nat := 65536

/-- `validateCredentialValue`. -/
def validateCredentialValue (value : JsValue) : Except JsError String :=
  match value with
  | .str s =>
    if isBlank s then .error (serviceError .invalidRequest "value must not be empty")
    else if MAX_CREDENTIAL_VALUE_LENGTH < jsLength s then
      .error (serviceError .invalidRequest
        ("value must be at most " ++ toString MAX_CREDENTIAL_VALUE_LENGTH ++ " characters"))
    else if hasPrefix (jsTrim s) "credential-ref:" || isCredentialRef (jsTrim s) then
      .error (serviceError .invalidRequest ("value is a credential reference, not credential " ++
        "material. Pass the secret itself as value and the reference as ref, or use " ++
        "credential.attach to bind an existing reference."))
    else .ok s
  | _ => .error (serviceError .invalidRequest "value is required and must be a string")

/-- `^[A-Za-z0-9][A-Za-z0-9._:-]{0,63}$`. -/
def isLabel (label : String) : Bool :=
  match label.toList with
  | [] => false
  | first :: rest => first.isAlphanum && rest.length ≤ 63 &&
      rest.all fun c => c.isAlphanum || "._:-".toList.contains c

/-- `optionalLabel`. -/
def optionalLabel (value : JsValue) (field : String) : Except JsError (Option String) :=
  match value with
  | .undefined | .null => .ok none
  | .str s =>
    if s = "" then .ok none
    else if isLabel s then .ok (some s)
    else .error (serviceError .invalidRequest
      (field ++ " must be a short identifier (letters, digits, . _ : -)"))
  | _ => .error (serviceError .invalidRequest
      (field ++ " must be a short identifier (letters, digits, . _ : -)"))

/-- The environment a value names. -/
def environmentOf (value : JsValue) : Option ConfigurationEnvironment :=
  CONFIGURATION_ENVIRONMENTS.find? fun e => value.isText e.text

/-! ## Inputs and results -/

/-- `Scope`. -/
structure ScopeInput where
  environment : JsValue
  tenantId : Option String := none
  applicationId : Option String := none
  /-- The object the caller passed. -/
  raw : JsValue := .undefined

structure VariableInput extends ScopeInput where
  name : JsValue
  value : JsValue
  required : Option Bool := none

structure CredentialInput extends ScopeInput where
  name : JsValue
  credentialRef : JsValue
  required : Option Bool := none

structure CredentialStoreInput where
  ref : JsValue
  value : JsValue
  provider : JsValue := .undefined
  kind : JsValue := .undefined
  /-- `undefined`, or the binding to create or point at `ref`. -/
  name : JsValue := .undefined
  required : Option Bool := none
  environment : JsValue := .undefined
  tenantId : Option String := none
  applicationId : Option String := none
  /-- The object the caller passed. -/
  raw : JsValue := .undefined

structure ConfigurationVariableView (τ : Type) extends ConfigurationScope where
  id : String
  name : String
  value : String
  required : Bool
  createdAt : τ
  updatedAt : τ
  createdBy : String
  kind : String := "variable"
  deriving DecidableEq, Repr

structure ConfigurationSecretView (τ : Type) extends ConfigurationScope where
  id : String
  name : String
  credentialRef : String
  required : Bool
  createdAt : τ
  updatedAt : τ
  createdBy : String
  kind : String := "secret"
  configured : Bool := true
  deriving DecidableEq, Repr

/-- `variableView`. -/
def variableView (item : ConfigurationVariable τ) : ConfigurationVariableView τ where
  toConfigurationScope := item.toConfigurationScope
  id := item.id
  name := item.name
  value := item.value
  required := item.required
  createdAt := item.createdAt
  updatedAt := item.updatedAt
  createdBy := item.createdBy

/-- `secretView`: neither the version nor a legacy value. -/
def secretView (item : ConfigurationSecret τ) : ConfigurationSecretView τ where
  toConfigurationScope := item.toConfigurationScope
  id := item.id
  name := item.name
  credentialRef := item.credentialRef
  required := item.required
  createdAt := item.createdAt
  updatedAt := item.updatedAt
  createdBy := item.createdBy

structure ConfigurationDeclaration where
  name : String
  kind : String
  required : Bool
  deriving DecidableEq, Repr

structure ConfigurationList (τ : Type) where
  variableViews : List (ConfigurationVariableView τ)
  secretViews : List (ConfigurationSecretView τ)
  declarations : List ConfigurationDeclaration

structure CredentialStoreResult (τ : Type) where
  ref : String
  version : Int
  storedAt : String
  binding : Option (ConfigurationSecretView τ) := none
  deriving DecidableEq, Repr

/-! ## Metadata of stored credentials -/

structure SecretStoredRecord where
  tenantId : String
  /-- The id of the reference. -/
  secretId : String
  providerRef : String
  provider : Option String := none
  kind : Option String := none
  version : Int
  storedAt : String
  principalId : String
  purpose : String
  deriving DecidableEq, Repr

structure SecretFailureRecord where
  tenantId : String
  secretId : String
  provider : Option String := none
  principalId : String
  purpose : String
  reason : String
  timestamp : String
  deriving DecidableEq, Repr

namespace FeltDbSecretMetadataStore

/-- The head record once a version is stored. -/
def storedHead (existing : Secret) (input : SecretStoredRecord) : Secret :=
  { existing with
    currentVersion := input.version
    status := "active"
    providerRef := input.providerRef
    provider := keepPresent input.provider <|> existing.provider
    kind := keepPresent input.kind <|> existing.kind }

/-- The head record of the first version. -/
def newHead (id : String) (input : SecretStoredRecord) : Secret where
  id := id
  tenantId := input.tenantId
  name := input.secretId
  currentVersion := input.version
  status := "active"
  providerRef := input.providerRef
  provider := keepPresent input.provider
  kind := keepPresent input.kind
  createdAt := input.storedAt
  createdBy := input.principalId

/-- The record of the version. -/
def newVersion (id secretId : String) (input : SecretStoredRecord) : SecretVersion where
  id := id
  secretId := secretId
  tenantId := input.tenantId
  version := input.version
  providerRef := input.providerRef
  status := .active
  createdAt := input.storedAt
  createdBy := input.principalId

/-- The event of a version, the first or a further one. -/
def storedEvent (id secretId : String) (first : Bool) (input : SecretStoredRecord) :
    SecretAuditEvent where
  id := id
  type := if first then "secret.created" else "secret.rotated"
  secretId := secretId
  version := some input.version
  tenantId := input.tenantId
  principalId := input.principalId
  timestamp := input.storedAt
  result := "success"
  purpose := input.purpose
  provider := keepPresent input.provider

/-- A further version: the head record is overwritten, and what is active is retired. -/
def advanceHead (existing : Secret) (input : SecretStoredRecord) : Svc τ Secret := do
  let secret := storedHead existing input
  (SecretMetadataOp.updateSecret existing.id secret).perform
  let active : List SecretVersion ← (SecretMetadataOp.findActive existing.id).perform
  Task.forEach (fun previous =>
    (SecretMetadataOp.updateVersion previous.id { previous with status := .retired }).perform) active
  pure secret

/-- The first version: a head record of its own. -/
def createHead (input : SecretStoredRecord) : Svc τ Secret := do
  let id ← randomUUID
  let secret := newHead id input
  (SecretMetadataOp.insertSecret secret).perform
  pure secret

/-- `recordStored`; `true` where this was the first version. -/
def recordStored (input : SecretStoredRecord) : Svc τ Bool := do
  let existing : Option Secret ← (SecretMetadataOp.findSecret input.tenantId input.secretId).perform
  let secret ← match existing with
    | some existing => advanceHead existing input
    | none => createHead input
  let versionId ← randomUUID
  (SecretMetadataOp.insertVersion (newVersion versionId secret.id input)).perform
  let eventId ← randomUUID
  (SecretMetadataOp.insertEvent (storedEvent eventId secret.id existing.isNone input)).perform
  pure existing.isNone

/-- `recordFailure`. -/
def recordFailure (input : SecretFailureRecord) : Svc τ Unit := do
  let existing : Option Secret ← (SecretMetadataOp.findSecret input.tenantId input.secretId).perform
  let id ← randomUUID
  (SecretMetadataOp.insertEvent {
    id, type := "secret.failed", secretId := (existing.map Secret.id).getD input.secretId
    tenantId := input.tenantId, principalId := input.principalId, timestamp := input.timestamp
    result := "failure", purpose := input.purpose, reason := some input.reason
    provider := keepPresent input.provider }).perform

end FeltDbSecretMetadataStore

/-! ## The service -/

/-- The configuration of a configuration service. -/
structure ConfigurationService where
  /-- The policy enforcement point. -/
  authority : Option ServiceGateway
  declarations : List ConfigurationDeclaration := []
  /-- Whether stored credentials leave metadata. -/
  secretMetadata : Bool := true
  /-- `error.stack`. -/
  stackOf : JsError → String := JsError.message

/-- `resource`. -/
def configurationResource (scope : ConfigurationScope) (name : Option String) (type : String)
    (credentialRef : Option String) : ServiceResource where
  type := type
  tenantId := scope.tenantId
  id := (keepPresent name).map fun name => scope.environment.text ++ "/" ++ name
  attributes := [("applicationId", scope.applicationId), ("environment", scope.environment.text)] ++
    ((keepPresent credentialRef).map fun ref => ("credentialRef", ref)).toList

/-- `text.includes(value)`. -/
def includesText (text value : String) : Bool := decide (value.toList <:+: text.toList)

/-- `failureReason`. -/
def failureReason (error : JsError) : String :=
  match error.code? with
  | some .denied => "secret_resolution_denied"
  | some .custodyReadOnly => "secret_unavailable"
  | _ => "internal_error"

namespace ConfigurationService

variable (service : ConfigurationService)

/-- `gateway()`. -/
def gateway : Except JsError ServiceGateway :=
  match service.authority with
  | some gateway => .ok gateway
  | none => .error (serviceError .authorityUnavailable
      "Configuration has no AuthBoundry authority configured")

/-- `resolveConfigurationOwnership`. -/
def resolveOwnership (gateway : ServiceGateway) (scope : ScopeInput) (caller : PrincipalInput) :
    Svc τ (VerifiedPrincipal × ConfigurationScope) := do
  let principal ← requireVerifiedPrincipal caller
  check (rejectCallerActor scope.raw principal)
  let tenantId ← check (resolveTenant scope.tenantId principal)
  if scope.applicationId.any (fun a => a != gateway.application) then
    throw (serviceError .denied "Configuration belongs to a different application"
      { reason := some "application_mismatch" })
  else
    match environmentOf scope.environment with
    | none => throw (.validation "Invalid environment")
    | some environment =>
      pure (principal, { tenantId, applicationId := gateway.application, environment })

/-- `own`. -/
def own (scope : ScopeInput) (caller : PrincipalInput) :
    Svc τ (VerifiedPrincipal × ConfigurationScope) := do
  let gateway ← check service.gateway
  resolveOwnership gateway scope caller

/-- `record`. -/
def record (type : String) (scope : ConfigurationScope) (name kind actor operation status : String) :
    Svc τ Unit := do
  let id ← randomUUID
  let timestamp ← now
  (ConfigurationOp.audit { toConfigurationScope := scope, id, type, name, kind, actor, timestamp
                           operation, status }).perform

/-- `list`. -/
def list (scope : ScopeInput) (caller : PrincipalInput) : Svc τ (ConfigurationList τ) := do
  let (principal, owned) ← service.own scope caller
  let gateway ← check service.gateway
  gateway.execute "configuration.read" (.of principal)
    (configurationResource owned none "configuration" none) { service := "configuration" }
    fun _ _ => do
      let stored : List (ConfigurationVariable τ) ← (ConfigurationOp.listVariables owned).perform
      let bindings : List (ConfigurationSecret τ) ← (ConfigurationOp.listSecrets owned).perform
      pure { variableViews := stored.map variableView, secretViews := bindings.map secretView
             declarations := service.declarations }

/-- `createVariable`. -/
def createVariable (input : VariableInput) (caller : PrincipalInput) :
    Svc τ (ConfigurationVariableView τ) := do
  let (principal, owned) ← service.own input.toScopeInput caller
  let name ← check (validateName input.name)
  let value ← check (validateVariableValue input.value)
  let gateway ← check service.gateway
  gateway.execute "configuration.write" (.of principal)
    (configurationResource owned (some name) "configuration" none) { service := "configuration" }
    fun _ _ => do
      let current : Option (ConfigurationVariable τ) ← (ConfigurationOp.getVariable owned name).perform
      let secret : Option (ConfigurationSecret τ) ← (ConfigurationOp.getSecret owned name).perform
      if current.isSome || secret.isSome then
        throw (.validation ("Configuration " ++ name ++ " already exists"))
      else
        let timestamp ← now
        let id ← randomUUID
        let item : ConfigurationVariable τ := {
          toConfigurationScope := owned, id, name, value, required := input.required.getD false
          createdAt := timestamp, updatedAt := timestamp, createdBy := principal.principalId }
        (ConfigurationOp.saveVariable item none).perform
        record "configuration.created" owned name "variable" principal.principalId "created" "configured"
        pure (variableView item)

/-- `updateVariable`. -/
def updateVariable (input : VariableInput) (caller : PrincipalInput) :
    Svc τ (ConfigurationVariableView τ) := do
  let (principal, owned) ← service.own input.toScopeInput caller
  let name ← check (validateName input.name)
  let value ← check (validateVariableValue input.value)
  let gateway ← check service.gateway
  gateway.execute "configuration.write" (.of principal)
    (configurationResource owned (some name) "configuration" none) { service := "configuration" }
    fun _ _ => do
      let current : Option (ConfigurationVariable τ) ← (ConfigurationOp.getVariable owned name).perform
      match current with
      | none => throw (.validation ("Configuration " ++ name ++ " not found"))
      | some current =>
        let updatedAt ← now
        let item : ConfigurationVariable τ := { current with
          value, required := input.required.getD current.required, updatedAt
          version := current.version + 1 }
        (ConfigurationOp.saveVariable item (some current.version)).perform
        record "configuration.updated" current.toConfigurationScope current.name "variable"
          principal.principalId "updated" "configured"
        pure (variableView item)

/-- A binding as it is first written. -/
def newBinding (owned : ConfigurationScope) (name credentialRef : String) (required : Option Bool)
    (actor id : String) (timestamp : τ) : ConfigurationSecret τ where
  toConfigurationScope := owned
  id := id
  name := name
  credentialRef := credentialRef
  required := required.getD false
  createdAt := timestamp
  updatedAt := timestamp
  createdBy := actor

/-- A binding once it is re-pointed; a legacy value is dropped. -/
def repointed (current : ConfigurationSecret τ) (credentialRef : String) (required : Option Bool)
    (timestamp : τ) : ConfigurationSecret τ :=
  { current with
    credentialRef := credentialRef
    required := required.getD current.required
    updatedAt := timestamp
    legacyValue := none
    version := current.version + 1 }

/-- `bind`; the two writes are also those of `createSecret` and `rotateSecret`. -/
def bind (owned : ConfigurationScope) (name credentialRef : String) (required : Option Bool)
    (actor : String) (current : Option (ConfigurationSecret τ)) : Svc τ (ConfigurationSecretView τ) := do
  let timestamp ← now
  match current with
  | none =>
    let id ← randomUUID
    let item := newBinding owned name credentialRef required actor id timestamp
    (ConfigurationOp.saveSecret item none).perform
    record "secret.created" owned name "secret" actor "created" "configured"
    pure (secretView item)
  | some current =>
    let item := repointed current credentialRef required timestamp
    (ConfigurationOp.saveSecret item (some current.version)).perform
    record "secret.rotated" current.toConfigurationScope current.name "secret" actor "rotated"
      "configured"
    pure (secretView item)

/-- `createSecret`. -/
def createSecret (input : CredentialInput) (caller : PrincipalInput) :
    Svc τ (ConfigurationSecretView τ) := do
  check (rejectRawSecret input.raw)
  let (principal, owned) ← service.own input.toScopeInput caller
  let name ← check (validateName input.name)
  let credentialRef ← check (requireCredentialRef input.credentialRef "credentialRef")
  let gateway ← check service.gateway
  gateway.execute "credential.attach" (.of principal)
    (configurationResource owned (some name) "credential" (some credentialRef))
    { service := "configuration", credentialRef := some credentialRef }
    fun _ _ => do
      let current : Option (ConfigurationSecret τ) ← (ConfigurationOp.getSecret owned name).perform
      let stored : Option (ConfigurationVariable τ) ← (ConfigurationOp.getVariable owned name).perform
      if current.isSome || stored.isSome then
        throw (.validation ("Configuration " ++ name ++ " already exists"))
      else bind owned name credentialRef input.required principal.principalId none

/-- `rotateSecret`. -/
def rotateSecret (input : CredentialInput) (caller : PrincipalInput) :
    Svc τ (ConfigurationSecretView τ) := do
  check (rejectRawSecret input.raw)
  let (principal, owned) ← service.own input.toScopeInput caller
  let name ← check (validateName input.name)
  let credentialRef ← check (requireCredentialRef input.credentialRef "credentialRef")
  let gateway ← check service.gateway
  gateway.execute "credential.rotate" (.of principal)
    (configurationResource owned (some name) "credential" (some credentialRef))
    { service := "configuration", credentialRef := some credentialRef }
    fun _ _ => do
      let current : Option (ConfigurationSecret τ) ← (ConfigurationOp.getSecret owned name).perform
      match current with
      | none => throw (.validation ("Configuration " ++ name ++ " not found"))
      | some current =>
        bind owned name credentialRef input.required principal.principalId (some current)

/-- `delete` of a variable. -/
def deleteVariable (scope : ScopeInput) (name : String) (caller : PrincipalInput) : Svc τ Unit := do
  let (principal, owned) ← service.own scope caller
  let gateway ← check service.gateway
  gateway.execute "configuration.delete" (.of principal)
    (configurationResource owned (some name) "configuration" none) { service := "configuration" }
    fun _ _ => do
      let item : Option (ConfigurationVariable τ) ← (ConfigurationOp.getVariable owned name).perform
      match item with
      | none => pure ()
      | some item =>
        (ConfigurationOp.deleteVariable item).perform
        record "configuration.deleted" item.toConfigurationScope item.name "variable"
          principal.principalId "deleted" "deleted"

/-- `delete` of a binding. -/
def deleteSecret (scope : ScopeInput) (name : String) (caller : PrincipalInput) : Svc τ Unit := do
  let (principal, owned) ← service.own scope caller
  let gateway ← check service.gateway
  gateway.execute "credential.detach" (.of principal)
    (configurationResource owned (some name) "credential" none) { service := "configuration" }
    fun _ _ => do
      let item : Option (ConfigurationSecret τ) ← (ConfigurationOp.getSecret owned name).perform
      match item with
      | none => pure ()
      | some item =>
        (ConfigurationOp.deleteSecret item).perform
        record "secret.deleted" item.toConfigurationScope item.name "secret"
          principal.principalId "deleted" "deleted"

/-! ### Stored credentials -/

/-- The change of the binding that a stored value calls for. -/
def bindingCapability (ref : String) (current : Option (ConfigurationSecret τ)) : Option String :=
  match current with
  | none => some "credential.attach"
  | some current => if current.credentialRef ≠ ref then some "credential.rotate" else none

/-- What is known of the binding before the value reaches custody: none is asked for, it
points at the reference already, or the change is authorized. -/
inductive BindingPlan (τ : Type) where
  | unnamed
  | kept (current : Option (ConfigurationSecret τ))
  | change (name : String) (current : Option (ConfigurationSecret τ))
      (context : ServiceExecutionContext τ)

/-- A name that is a variable is refused; the change of the binding is authorized. -/
def planBinding (gateway : ServiceGateway) (principal : VerifiedPrincipal)
    (owned : ConfigurationScope) (name : Option String) (ref : String) :
    Svc τ (BindingPlan τ) :=
  match name with
  | none => pure .unnamed
  | some name => do
    let stored : Option (ConfigurationVariable τ) ← (ConfigurationOp.getVariable owned name).perform
    if stored.isSome then
      throw (.validation ("Configuration " ++ name ++ " already exists as a variable"))
    else
      let current : Option (ConfigurationSecret τ) ← (ConfigurationOp.getSecret owned name).perform
      match bindingCapability ref current with
      | none => pure (.kept current)
      | some capability => do
        let requestId ← randomUUID
        let context ← gateway.authorize capability (.of principal)
          (configurationResource owned (some name) "credential" (some ref)) requestId
        pure (.change name current context)

/-- The value reaches custody; where it is refused, that is recorded. -/
def storeValue (gateway : ServiceGateway) (tools : EffectTools τ) (principal : VerifiedPrincipal)
    (owned : ConfigurationScope) (ref value : String) (provider kind : Option String) :
    Svc τ SecretCustodyWriteResult :=
  (gateway.storeCredential tools ref value { purpose := "credential.store", provider, kind }).tryCatch
    fun error => do
      if service.secretMetadata then
        let timestamp ← now
        (FeltDbSecretMetadataStore.recordFailure {
          tenantId := owned.tenantId, secretId := String.ofList (ref.toList.drop 15), provider
          principalId := principal.principalId, purpose := "credential.store"
          reason := failureReason error, timestamp := Timestamp.text timestamp }).ignore
        throw error
      else throw error

/-- The metadata of a stored value. -/
def recordStored (principal : VerifiedPrincipal) (owned : ConfigurationScope) (ref : String)
    (provider kind : Option String) (stored : SecretCustodyWriteResult) : Svc τ Unit :=
  if service.secretMetadata then do
    let _ ← FeltDbSecretMetadataStore.recordStored {
      tenantId := owned.tenantId, secretId := String.ofList (ref.toList.drop 15), providerRef := ref
      provider, kind, version := stored.version, storedAt := stored.storedAt
      principalId := principal.principalId, purpose := "credential.store" }
    pure ()
  else pure ()

/-- The binding, once the value is stored. -/
def performPlan (principal : VerifiedPrincipal) (owned : ConfigurationScope) (ref : String)
    (required : Option Bool) : BindingPlan τ → Svc τ (Option (ConfigurationSecretView τ))
  | .unnamed => pure none
  | .kept current => pure (current.map secretView)
  | .change name current context => do
    let startedAt ← now
    let view ← ServiceGateway.run context { service := "configuration", credentialRef := some ref }
      (fun _ _ => bind owned name ref required principal.principalId current) startedAt
    pure (some view)

/-- The effect of `credential.store`. -/
def storeEffect (gateway : ServiceGateway) (tools : EffectTools τ) (principal : VerifiedPrincipal)
    (owned : ConfigurationScope) (ref value : String) (provider kind name : Option String)
    (required : Option Bool) : Svc τ (CredentialStoreResult τ) := do
  let plan ← planBinding gateway principal owned name ref
  let stored ← service.storeValue gateway tools principal owned ref value provider kind
  service.recordStored principal owned ref provider kind stored
  let binding ← performPlan principal owned ref required plan
  pure { ref, version := stored.version, storedAt := stored.storedAt, binding }

/-- `input.name !== undefined`, and then a name. -/
def namedBinding (name : JsValue) : Except JsError (Option String) :=
  match name with
  | .undefined => .ok none
  | name => (validateName name).map some

/-- `storeCredentialUnredacted`, of an object. -/
def storeCredentialUnredacted (input : CredentialStoreInput) (caller : PrincipalInput) :
    Svc τ (CredentialStoreResult τ) := do
  let ref ← check (requireCredentialRef input.ref "ref")
  let value ← check (validateCredentialValue input.value)
  let provider ← check (optionalLabel input.provider "provider")
  let kind ← check (optionalLabel input.kind "kind")
  let name ← check (namedBinding input.name)
  let (principal, owned) ← service.own
    { environment := input.environment.orElse (.str "production"), tenantId := input.tenantId
      applicationId := input.applicationId, raw := input.raw } caller
  let gateway ← check service.gateway
  gateway.execute "credential.store" (.of principal)
    (configurationResource owned name "credential" (some ref))
    { service := "configuration", credentialRef := some ref, provider := provider }
    fun _ tools => service.storeEffect gateway tools principal owned ref value provider kind name
      input.required

/-- `redactValue`: an error whose message, stack or reason contains the value is replaced,
its code kept. -/
def redactValue (error : JsError) (value : JsValue) : JsError :=
  match value with
  | .str value =>
    if value = "" then error
    else
      let leaks (text : String) : Bool := includesText text value
      match error with
      | .authority e =>
        if leaks e.message || leaks (service.stackOf error) || e.details.reason.any leaks then
          serviceError e.code ("credential.store failed (" ++ e.code.text ++ ")")
            { capability := keepPresent e.details.capability
              decisionId := keepPresent e.details.decisionId }
        else error
      | .validation message =>
        if leaks message || leaks (service.stackOf error) then
          .validation "credential.store input is invalid"
        else error
      | .conflict message | .other message =>
        if leaks message || leaks (service.stackOf error) then
          serviceError .authorityUnavailable "credential.store failed"
        else error
  | _ => error

/-- `storeCredential`; `none` is what is not an object. -/
def storeCredential (input : Option CredentialStoreInput) (caller : PrincipalInput) :
    Svc τ (CredentialStoreResult τ) :=
  match input with
  | none => throw (serviceError .invalidRequest "credential.store input must be an object")
  | some input => (service.storeCredentialUnredacted input caller).tryCatch fun error =>
    throw (service.redactValue error input.value)

end ConfigurationService

end AppPort
