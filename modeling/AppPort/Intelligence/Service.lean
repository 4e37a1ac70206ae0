import AppPort.Intelligence.Selection

/-!
# The intelligence service

`IntelligenceService`, method by method. Its state is one configuration variable, the
selection, and one credential binding; it adds no collection of its own.
-/

namespace AppPort

open Effects

variable {τ : Type} [Timestamp τ]

/-! ## Inputs and results -/

/-- `Scope`, of which `environment` may be absent. -/
structure IntelligenceScope where
  environment : JsValue := .undefined
  tenantId : Option String := none
  applicationId : Option String := none
  /-- The object the caller passed. -/
  raw : JsValue := .undefined

structure IntelligenceCredentialInput extends IntelligenceScope where
  credentialRef : JsValue

/-- Where a configuration leads. -/
inductive IntelligenceEndpointKind where
  | default
  | custom
  deriving DecidableEq, Repr

/-- What a client may read of a configuration. -/
structure IntelligenceConfigured (τ : Type) where
  provider : String
  model : String
  kind : IntelligenceEndpointKind
  url : Option String
  credentialRequirement : CredentialRequirement
  credentialConfigured : Bool
  updatedAt : τ
  deriving DecidableEq, Repr

/-- `IntelligenceConfigurationView`; `none` where nothing is configured. -/
structure IntelligenceConfigurationView (τ : Type) where
  environment : ConfigurationEnvironment
  configured : Option (IntelligenceConfigured τ)
  deriving DecidableEq, Repr

/-- What the execution boundary is handed. -/
structure IntelligenceRuntimeConfiguration where
  provider : String
  protocol : IntelligenceProtocol
  model : String
  endpoint : String
  credentialRef : Option String := none
  deriving DecidableEq, Repr

/-! ## Checks -/

def RAW_CREDENTIAL_FIELDS : List String :=
  ["value", "secret", "password", "token", "apiKey", "signingSecret", "credential"]

/-- `rejectRawCredentialFields`. -/
def rejectRawCredentialFields (input : JsValue) : Except JsError Unit :=
  match RAW_CREDENTIAL_FIELDS.find? fun field => match input.prop field with
    | .undefined => false
    | _ => true with
  | none => .ok ()
  | some field => .error (migrationError ("\"" ++ field ++ "\" looks like raw credential " ++
      "material. Register it with AuthBoundry and pass credentialRef instead."))

/-- What reading a property of an unknown provider throws. -/
def unknownProvider (property : String) : JsError :=
  .other ("Cannot read properties of undefined (reading '" ++ property ++ "')")

/-- `getIntelligenceProvider(id)!`, of which a property is read next. -/
def knownProvider (id property : String) : Except JsError IntelligenceProvider :=
  match getIntelligenceProvider id with
  | some provider => .ok provider
  | none => .error (unknownProvider property)

/-- `input.credentialRef === undefined`, and else a reference. -/
def optionalCredentialRef (value : JsValue) : Except JsError (Option String) :=
  match value with
  | .undefined => .ok none
  | value => (requireCredentialRef value "credentialRef").map some

/-- `view`. -/
def intelligenceView (environment : ConfigurationEnvironment) (selection : IntelligenceSelection)
    (updatedAt : τ) (credentialConfigured : Bool) :
    Except JsError (IntelligenceConfigurationView τ) :=
  match getIntelligenceProvider selection.provider with
  | none => .error (.validation
      ("Stored provider \"" ++ selection.provider ++ "\" is no longer known"))
  | some provider =>
    let isDefault := !present selection.endpoint || selection.endpoint == some "default"
    .ok { environment
          configured := some {
            provider := provider.id, model := selection.model
            kind := if isDefault then .default else .custom
            url := keepPresent (some (resolveEndpoint provider selection.endpoint))
            credentialRequirement := provider.credential, credentialConfigured, updatedAt } }

/-- `resource`. -/
def intelligenceResource (scope : ConfigurationScope) (type : String)
    (credentialRef : Option String) : ServiceResource where
  type := type
  tenantId := scope.tenantId
  id := some (scope.environment.text ++ "/" ++
    (if type = "credential" then INTELLIGENCE_CREDENTIAL_NAME else INTELLIGENCE_SELECTION_NAME))
  attributes := [("applicationId", scope.applicationId), ("environment", scope.environment.text)] ++
    ((keepPresent credentialRef).map fun ref => ("credentialRef", ref)).toList

/-! ## The service -/

/-- What is stored for a scope. -/
structure IntelligenceStored (τ : Type) where
  stored : Option (ConfigurationVariable τ)
  binding : Option (ConfigurationSecret τ)
  selection : Option IntelligenceSelection

/-- The configuration of an intelligence service. -/
structure IntelligenceService where
  authority : Option ServiceGateway
  /-- `new URL(value)`; `none` where that throws. -/
  newUrl : String → Option EndpointUrl

namespace IntelligenceService

variable (service : IntelligenceService)

/-- `gateway()`. -/
def gateway : Except JsError ServiceGateway :=
  match service.authority with
  | some gateway => .ok gateway
  | none => .error (serviceError .authorityUnavailable
      "Intelligence has no AuthBoundry authority configured")

/-- `own`. -/
def own (scope : IntelligenceScope) (caller : PrincipalInput) :
    Svc τ (VerifiedPrincipal × ConfigurationScope) := do
  let gateway ← check service.gateway
  ConfigurationService.resolveOwnership gateway
    { environment := scope.environment.orElse (.str "production"), tenantId := scope.tenantId
      applicationId := scope.applicationId, raw := scope.raw } caller

/-- `load`. -/
def load (owned : ConfigurationScope) : Svc τ (IntelligenceStored τ) := do
  let stored : Option (ConfigurationVariable τ) ←
    (ConfigurationOp.getVariable owned INTELLIGENCE_SELECTION_NAME).perform
  let binding : Option (ConfigurationSecret τ) ←
    (ConfigurationOp.getSecret owned INTELLIGENCE_CREDENTIAL_NAME).perform
  match stored with
  | none => pure { stored, binding, selection := none }
  | some item => do
    let selection ← check (parseSelection item.value)
    pure { stored, binding, selection := some selection }

/-- `save`. -/
def save (owned : ConfigurationScope) (current : Option (ConfigurationVariable τ))
    (selection : IntelligenceSelection) (principal : VerifiedPrincipal) : Svc τ Unit := do
  let timestamp ← now
  match current with
  | some current => do
    let item : ConfigurationVariable τ := { current with
      value := selection.text, updatedAt := timestamp, version := current.version + 1 }
    (ConfigurationOp.saveVariable item (some current.version)).perform
    ConfigurationService.record "configuration.updated" item.toConfigurationScope item.name
      "variable" principal.principalId "updated" "configured"
  | none => do
    let id ← randomUUID
    let item : ConfigurationVariable τ := {
      toConfigurationScope := owned, id, name := INTELLIGENCE_SELECTION_NAME
      value := selection.text, required := false, createdAt := timestamp, updatedAt := timestamp
      createdBy := principal.principalId }
    (ConfigurationOp.saveVariable item none).perform
    ConfigurationService.record "configuration.created" item.toConfigurationScope item.name
      "variable" principal.principalId "created" "configured"

/-- `bind`. -/
def bind (owned : ConfigurationScope) (current : Option (ConfigurationSecret τ))
    (credentialRef : String) (principal : VerifiedPrincipal) : Svc τ Unit := do
  let timestamp ← now
  match current with
  | some current => do
    let item : ConfigurationSecret τ := { current with
      credentialRef, updatedAt := timestamp, version := current.version + 1 }
    (ConfigurationOp.saveSecret item (some current.version)).perform
    ConfigurationService.record "secret.rotated" item.toConfigurationScope item.name "secret"
      principal.principalId "rotated" "configured"
  | none => do
    let id ← randomUUID
    let item : ConfigurationSecret τ := {
      toConfigurationScope := owned, id, name := INTELLIGENCE_CREDENTIAL_NAME, credentialRef
      required := false, createdAt := timestamp, updatedAt := timestamp
      createdBy := principal.principalId }
    (ConfigurationOp.saveSecret item none).perform
    ConfigurationService.record "secret.created" item.toConfigurationScope item.name "secret"
      principal.principalId "created" "configured"

/-- `detach`. -/
def detach (current : ConfigurationSecret τ) (principal : VerifiedPrincipal) : Svc τ Unit := do
  (ConfigurationOp.deleteSecret current).perform
  ConfigurationService.record "secret.deleted" current.toConfigurationScope current.name "secret"
    principal.principalId "deleted" "deleted"

/-- `catalog`. -/
def catalog (scope : IntelligenceScope) (caller : PrincipalInput) :
    Svc τ (List IntelligenceProvider) := do
  let (principal, owned) ← service.own scope caller
  let gateway ← check service.gateway
  gateway.execute "intelligence.catalog" (.of principal)
    (intelligenceResource owned "intelligence" none) { service := "intelligence" }
    fun _ _ => pure INTELLIGENCE_CATALOG

/-- `get`. -/
def get (scope : IntelligenceScope) (caller : PrincipalInput) :
    Svc τ (IntelligenceConfigurationView τ) := do
  let (principal, owned) ← service.own scope caller
  let gateway ← check service.gateway
  gateway.execute "intelligence.read" (.of principal)
    (intelligenceResource owned "intelligence" none) { service := "intelligence" }
    fun _ _ => do
      let current ← load owned
      match current.stored, current.selection with
      | some item, some selection =>
        check (intelligenceView owned.environment selection item.updatedAt current.binding.isSome)
      | _, _ => pure { environment := owned.environment, configured := none }

/-- The selection leads elsewhere than the one before. -/
def destinationChanged (provider : IntelligenceProvider) (current : Option IntelligenceSelection)
    (selection : IntelligenceSelection) : Bool :=
  match current with
  | none => true
  | some current => current.provider != selection.provider ||
      resolveEndpoint provider current.endpoint != resolveEndpoint provider selection.endpoint

/-- The effect of `set`: a credential goes with the destination it was configured for, so
that one that is not replaced is dropped where the destination changes. -/
def setEffect (owned : ConfigurationScope) (selection : IntelligenceSelection)
    (credentialRef : Option String) (principal : VerifiedPrincipal) :
    Svc τ (IntelligenceConfigurationView τ) := do
  let current ← load owned
  let provider ← check (knownProvider selection.provider "credential")
  if provider.credential = .none ∧ credentialRef.isSome then
    throw (.validation ("Provider " ++ provider.id ++ " does not use a credential"))
  else
    let keepCredential := current.binding.isSome && credentialRef.isNone &&
      !destinationChanged provider current.selection selection
    if provider.credential = .required ∧ credentialRef = none ∧ keepCredential = false then
      throw (.validation ("Provider " ++ provider.id ++ " requires a credential" ++
        (if current.binding.isSome then " (the existing credential is not carried over to a " ++
          "different provider or endpoint)" else "")))
    else do
      match current.binding, credentialRef with
      | some binding, none => if keepCredential then pure () else detach binding principal
      | binding, some ref => bind owned binding ref principal
      | none, none => pure ()
      save owned current.stored selection principal
      let updatedAt ← now
      check (intelligenceView owned.environment selection updatedAt
        (credentialRef.isSome || keepCredential))

/-- `set`. -/
def set (input : IntelligenceWriteInput) (caller : PrincipalInput) :
    Svc τ (IntelligenceConfigurationView τ) := do
  check (rejectRawCredentialFields input.raw)
  let (principal, owned) ← service.own
    { environment := input.environment, tenantId := input.tenantId
      applicationId := input.applicationId, raw := input.raw } caller
  let selection ← check (validateSelection service.newUrl input)
  let credentialRef ← check (optionalCredentialRef input.credentialRef)
  let gateway ← check service.gateway
  gateway.execute "intelligence.write" (.of principal)
    (intelligenceResource owned "intelligence" credentialRef)
    { service := "intelligence", provider := some selection.provider, credentialRef }
    fun _ _ => setEffect owned selection credentialRef principal

/-- The effect of `setCredential`. -/
def setCredentialEffect (owned : ConfigurationScope) (credentialRef : String)
    (principal : VerifiedPrincipal) : Svc τ (IntelligenceConfigurationView τ) := do
  let current ← load owned
  match current.stored, current.selection with
  | some item, some selection => do
    let provider ← check (knownProvider selection.provider "credential")
    if provider.credential = .none then
      throw (.validation "This provider does not use a credential")
    else do
      bind owned current.binding credentialRef principal
      check (intelligenceView owned.environment selection item.updatedAt true)
  | _, _ => throw (.validation "Intelligence is not configured; set a provider and model first")

/-- `setCredential`. -/
def setCredential (input : IntelligenceCredentialInput) (caller : PrincipalInput) :
    Svc τ (IntelligenceConfigurationView τ) := do
  check (rejectRawCredentialFields input.raw)
  let (principal, owned) ← service.own input.toIntelligenceScope caller
  let credentialRef ← check (requireCredentialRef input.credentialRef "credentialRef")
  let gateway ← check service.gateway
  gateway.execute "intelligence.credential.set" (.of principal)
    (intelligenceResource owned "credential" (some credentialRef))
    { service := "intelligence", credentialRef := some credentialRef }
    fun _ _ => setCredentialEffect owned credentialRef principal

/-- The effect of `removeCredential`. -/
def removeCredentialEffect (owned : ConfigurationScope) (principal : VerifiedPrincipal) :
    Svc τ (IntelligenceConfigurationView τ) := do
  let current ← load owned
  match current.stored, current.selection with
  | some item, some selection => do
    let provider ← check (knownProvider selection.provider "credential")
    if provider.credential = .required then
      throw (.validation ("This provider requires a credential; replace it instead of " ++
        "removing it"))
    else do
      match current.binding with
      | some binding => detach binding principal
      | none => pure ()
      check (intelligenceView owned.environment selection item.updatedAt false)
  | _, _ => throw (.validation "Intelligence is not configured")

/-- `removeCredential`. -/
def removeCredential (scope : IntelligenceScope) (caller : PrincipalInput) :
    Svc τ (IntelligenceConfigurationView τ) := do
  let (principal, owned) ← service.own scope caller
  let gateway ← check service.gateway
  gateway.execute "intelligence.credential.remove" (.of principal)
    (intelligenceResource owned "credential" none) { service := "intelligence" }
    fun _ _ => removeCredentialEffect owned principal

/-- The effect of `resolveRuntime`. -/
def resolveEffect (owned : ConfigurationScope) : Svc τ (Option IntelligenceRuntimeConfiguration) := do
  let current : IntelligenceStored τ ← load owned
  match current.selection with
  | none => pure none
  | some selection => do
    let provider ← check (knownProvider selection.provider "id")
    pure (some {
      provider := provider.id, protocol := provider.protocol, model := selection.model
      endpoint := resolveEndpoint provider selection.endpoint
      credentialRef := current.binding.map ConfigurationSecret.credentialRef })

/-- `resolveRuntime`; `none` where nothing is configured. -/
def resolveRuntime (scope : IntelligenceScope) (caller : PrincipalInput) :
    Svc τ (Option IntelligenceRuntimeConfiguration) := do
  let (principal, owned) ← service.own scope caller
  let gateway ← check service.gateway
  gateway.execute "intelligence.resolve" (.of principal)
    (intelligenceResource owned "intelligence" none) { service := "intelligence" }
    fun _ _ => resolveEffect owned

end IntelligenceService

end AppPort
