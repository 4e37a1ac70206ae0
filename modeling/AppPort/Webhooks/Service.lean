import AppPort.Authority.Gateway
import Mathlib.Algebra.Group.Nat.Defs

/-!
# The webhook service

`WebhookService`, method by method. Outbound: endpoints, `emitWebhookEvent`,
`deliverWebhook` with its settlement, `replayWebhookDelivery`, and the managed loop of
the runtime. Inbound: `registerIntegration` and `receiveWebhook`.

`publish` is `emitWebhookEvent` and then `deliverWebhook` of every delivery at once,
which is what a pool does when these are its processes.

Hashes, JSON and URLs are the runtime's own (`NodeRuntime`); nothing is assumed of them
here.
-/

namespace AppPort

open Effects

variable {τ : Type} [Timestamp τ]

/-- What the webhook service uses of `node:crypto`, `JSON` and `URL`. -/
structure NodeRuntime where
  /-- `createHash('sha256').update(text).digest('hex')`. -/
  sha256Hex : String → String
  /-- `createHmac('sha256', secret).update(payload).digest('hex')`. -/
  hmacSha256Hex : (secret payload : String) → String
  /-- `JSON.parse(text)`; `none` where it throws. -/
  jsonParse : String → Option JsValue
  /-- `JSON.stringify(value)`. -/
  jsonStringify : JsValue → String
  /-- `new URL(url).origin`; `none` where it throws. -/
  urlOrigin : String → Option String

/-! ## Signatures -/

/-- `signWebhookPayload`. -/
def signWebhookPayload (node : NodeRuntime) (secret payload : String) : String :=
  node.hmacSha256Hex secret payload

/-- `verifyWebhookSignature`. -/
def verifyWebhookSignature (node : NodeRuntime) (secret payload signature : String) : Bool :=
  signWebhookPayload node secret payload == signature

/-- `value ?? other`. -/
def JsValue.orElse (value other : JsValue) : JsValue :=
  match value with
  | .undefined | .null => other
  | _ => value

/-- `signingSecretValue`: the material itself, or an object that carries it. -/
def signingSecretValue (value : JsValue) : Except JsError String :=
  let missing : JsError := .other "Resolved credential does not contain a signing secret"
  match value with
  | .str s => if s = "" then .error missing else .ok s
  | _ =>
    match ((value.prop "signingSecret").orElse (value.prop "secret")).text? with
    | some s => if s = "" then .error missing else .ok s
    | none => .error missing

/-! ## Inputs -/

/-- `credential-ref:` and an identifier of at most 200 characters. -/
def isCredentialRef (ref : String) : Bool :=
  hasPrefix ref "credential-ref:" &&
    match ref.toList.drop 15 with
    | [] => false
    | first :: rest => first.isAlphanum && rest.length ≤ 199 &&
        rest.all fun c => c.isAlphanum || "._:-".toList.contains c

/-- `requireCredentialRef`. -/
def requireCredentialRef (value : JsValue) (field : String) : Except JsError String :=
  let invalid := serviceError .invalidRequest (field ++ " is required and must be a credential-ref:<id>")
  match value with
  | .str ref =>
    if isCredentialRef ref then .ok ref
    else if ref = "" then .error invalid
    else .error (migrationError ("\"" ++ field ++ "\" must be a credential-ref:<id> into AuthBoundry " ++
      "custody; raw credentials are never stored in service configuration."))
  | _ => .error invalid

/-- `^[a-z][a-z0-9_-]{0,63}$`. -/
def isProvider (provider : String) : Bool :=
  match provider.toList with
  | [] => false
  | first :: rest => first.isLower && rest.length ≤ 63 &&
      rest.all fun c => c.isLower || c.isDigit || c == '_' || c == '-'

/-- An array of non-empty texts. -/
def eventNames (value : JsValue) : Option (List String) :=
  match value with
  | .arr xs => xs.mapM fun x => match x with
    | .str s => if s = "" then none else some s
    | _ => none
  | _ => none

structure CreateWebhookEndpointInput where
  tenantId : Option String := none
  url : JsValue
  events : JsValue
  signingCredentialRef : JsValue
  /-- The object the caller passed. -/
  raw : JsValue := .undefined

structure DisableWebhookEndpointInput where
  tenantId : Option String := none
  id : String
  /-- The object the caller passed. -/
  raw : JsValue := .undefined

structure EmitWebhookEventInput where
  tenantId : Option String := none
  type : String
  payload : JsValue := .undefined
  /-- The object the caller passed. -/
  raw : JsValue := .undefined

structure RegisterWebhookIntegrationInput where
  tenantId : Option String := none
  provider : JsValue
  signingCredentialRef : JsValue
  /-- The object the caller passed. -/
  raw : JsValue := .undefined

/-- The value of a header. -/
inductive HeaderValue where
  | text (value : String)
  | texts (values : List String)

/-- Headers by name, in order; a name may stand without a value. -/
abbrev Headers := List (String × Option HeaderValue)

structure InboundWebhookRequest where
  /-- `none` when it is not a string. -/
  integrationId : Option String
  headers : Headers
  /-- `none` when it is not a string. -/
  rawBody : Option String

structure InboundWebhookResult where
  accepted : Bool
  eventId : String
  result : JsValue := .undefined

/-- `header`: the value under the name, else under a name that lower-cases to it. The
names asked for are lower-case ASCII, which no other letter lower-cases to. -/
def header (headers : Headers) (name : String) : Option String :=
  let value := (headers.lookup name).join <|> (headers.lookup name.toLower).join <|>
    (headers.find? fun entry => entry.1.toLower == name).bind Prod.snd
  match value with
  | some (.text s) => some s
  | some (.texts ss) => ss.head?
  | none => none

/-! ## The service -/

/-- The configuration of a webhook service. -/
structure WebhookService where
  /-- The policy enforcement point. -/
  authority : Option ServiceGateway
  integrationStore : Bool := true
  replayStore : Bool := true
  maxRetryAttempts : Int := 5
  /-- `allowedEvents`; an empty list allows every event. -/
  allowedEvents : List String := []
  inboundToleranceMs : Nat := 5 * 60 * 1000
  /-- The providers an inbound handler is registered for. -/
  inboundHandlers : List String := []

namespace WebhookService

def INITIAL_RETRY_DELAY_MS : Nat := 5000

variable (node : NodeRuntime) (service : WebhookService)

/-- `gateway()`. -/
def gateway : Except JsError ServiceGateway :=
  match service.authority with
  | some gateway => .ok gateway
  | none => .error (serviceError .authorityUnavailable
      "Webhooks have no AuthBoundry authority configured")

/-- What an audit record says beside its id and time. -/
structure AuditFields where
  type : String
  endpointId : Option String := none
  deliveryId : Option String := none
  integrationId : Option String := none
  tenantId : String
  principalId : String
  success : Bool
  reason : Option String := none

/-- `audit`. -/
def audit (fields : AuditFields) : Svc τ Unit := do
  let id ← randomUUID
  let timestamp ← now
  (AuditOp.webhook { id, timestamp, type := fields.type, endpointId := fields.endpointId
                     deliveryId := fields.deliveryId, integrationId := fields.integrationId
                     tenantId := fields.tenantId, principalId := fields.principalId
                     success := fields.success, reason := fields.reason }).perform

/-! ### Endpoints -/

/-- `createWebhookEndpoint`. -/
def createWebhookEndpoint (input : CreateWebhookEndpointInput) (caller : PrincipalInput) :
    Svc τ (WebhookEndpoint τ) := do
  let principal ← requireVerifiedPrincipal caller
  match input.raw.prop "secret" with
  | .undefined => do
    check (rejectCallerActor input.raw principal)
    let tenantId ← check (resolveTenant input.tenantId principal)
    match input.url, eventNames input.events with
    | .str url, some events => do
      let credentialRef ← check (requireCredentialRef input.signingCredentialRef "signingCredentialRef")
      let destination : ValidatedDestination ← (HostOp.validateDestination url).perform
      let gateway ← check service.gateway
      gateway.execute "webhooks.register" (.of principal)
        { type := "webhook_endpoint", tenantId
          attributes := [("destination", destination.origin), ("credentialRef", credentialRef)] }
        { service := "webhooks", credentialRef := some credentialRef }
        fun context _ => do
          let createdAt ← now
          let id ← randomUUID
          let endpoint : WebhookEndpoint τ := {
            id, tenantId, applicationId := some context.application, url := destination.url, events
            signingCredentialRef := some credentialRef, createdAt
            createdBy := principal.principalId, version := 1 }
          (WebhookOp.createEndpoint endpoint).perform
          audit { type := "webhook.endpoint.created", endpointId := some endpoint.id, tenantId
                  principalId := principal.principalId, success := true }
          pure endpoint
    | .str _, none =>
      throw (serviceError .invalidRequest "events must be an array of event names")
    | _, _ => throw (serviceError .invalidRequest "url must be a string")
  | _ => throw (migrationError
      "Webhook signing secrets are not accepted; pass signingCredentialRef.")

/-- `getWebhookEndpoint`. -/
def getWebhookEndpoint (tenantId id : String) : Svc τ (Option (WebhookEndpoint τ)) := do
  let endpoint : Option (WebhookEndpoint τ) ← (WebhookOp.getEndpoint id).perform
  pure (ofTenant WebhookEndpoint.tenantId tenantId endpoint)

/-- `disableWebhookEndpoint`. -/
def disableWebhookEndpoint (input : DisableWebhookEndpointInput) (caller : PrincipalInput) :
    Svc τ (Option (WebhookEndpoint τ)) := do
  let principal ← requireVerifiedPrincipal caller
  check (rejectCallerActor input.raw principal)
  let tenantId ← check (resolveTenant input.tenantId principal)
  let endpoint ← getWebhookEndpoint tenantId input.id
  match endpoint with
  | none => pure none
  | some endpoint => do
    let gateway ← check service.gateway
    if endpoint.applicationId ≠ some gateway.application then pure none
    else if endpoint.disabledAt.isSome then pure (some endpoint)
    else
      gateway.execute "webhooks.remove" (.of principal)
        { type := "webhook_endpoint", tenantId, id := some endpoint.id }
        { service := "webhooks" }
        fun _ _ => do
          let disabledAt ← now
          let updated : Option (WebhookEndpoint τ) ←
            (WebhookOp.disableEndpoint endpoint.id endpoint.version disabledAt).perform
          match updated with
          | none => pure none
          | some updated => do
            audit { type := "webhook.endpoint.disabled", endpointId := some updated.id, tenantId
                    principalId := principal.principalId, success := true }
            pure (some updated)

/-! ### Emission -/

/-- The fields a caller may not choose a destination by, in the source's order. -/
def DESTINATION_FIELDS : List String :=
  ["url", "destination", "endpointId", "endpointIds", "signingCredentialRef", "credentialRef"]

/-- Destinations are never caller-selected. -/
def rejectDestination (input : JsValue) : Except JsError Unit :=
  DESTINATION_FIELDS.forM fun field =>
    match input.prop field with
    | .undefined => pure ()
    | _ => throw (serviceError .invalidRequest ("\"" ++ field ++
        "\" cannot be chosen when emitting; deliveries go only to registered, " ++
        "credential-bound destinations"))

/-- The endpoints an event of the application goes to. -/
def subscribes (application type : String) (endpoint : WebhookEndpoint τ) : Bool :=
  endpoint.applicationId == some application && endpoint.disabledAt.isNone &&
    endpoint.events.contains type

/-- The delivery `emitWebhookEvent` creates for one endpoint. -/
def emittedDelivery (input : EmitWebhookEventInput) (tenantId eventId : String) (createdAt : τ)
    (principal : VerifiedPrincipal) (decisionId endpointId id : String) : WebhookDelivery τ where
  id := id
  tenantId := tenantId
  endpointId := endpointId
  eventId := eventId
  eventType := input.type
  payload := input.payload
  status := .pending
  attemptCount := 0
  createdAt := createdAt
  principal := some (toDurablePrincipal principal none (some decisionId))
  version := 1

/-- One delivery for each endpoint. -/
def emittedDeliveries (delivery : (endpointId id : String) → WebhookDelivery τ) :
    List (WebhookEndpoint τ) → Svc τ (List (WebhookDelivery τ))
  | [] => pure []
  | endpoint :: rest => do
    let id ← randomUUID
    let deliveries ← emittedDeliveries delivery rest
    pure (delivery endpoint.id id :: deliveries)

/-- `emitWebhookEvent`. -/
def emitWebhookEvent (input : EmitWebhookEventInput) (caller : PrincipalInput) :
    Svc τ (List (WebhookDelivery τ)) := do
  let principal ← requireVerifiedPrincipal caller
  check (rejectDestination input.raw)
  let tenantId ← check (resolveTenant input.tenantId principal)
  if service.allowedEvents ≠ [] ∧ input.type ∉ service.allowedEvents then
    throw (serviceError .invalidRequest
      ("Webhook event \"" ++ input.type ++ "\" is not declared in appport.toml"))
  else do
    let gateway ← check service.gateway
    gateway.execute "webhooks.emit" (.of principal)
      { type := "webhook_event", tenantId, attributes := [("eventType", input.type)] }
      { service := "webhooks" }
      fun context _ => do
        let endpoints : List (WebhookEndpoint τ) ← (WebhookOp.listEndpoints tenantId).perform
        match endpoints.filter (subscribes context.application input.type) with
        | [] => pure []
        | matching => do
          let eventId ← randomUUID
          let createdAt ← now
          let deliveries ← emittedDeliveries
            (emittedDelivery input tenantId eventId createdAt principal
              context.authorization.decisionId) matching
          (WebhookOp.createDeliveries deliveries).perform
          Task.forEach (fun delivery : WebhookDelivery τ =>
            audit { type := "webhook.delivery.created", deliveryId := some delivery.id
                    endpointId := some delivery.endpointId, tenantId
                    principalId := principal.principalId, success := true }) deliveries
          pure deliveries

/-- `getWebhookDelivery`. -/
def getWebhookDelivery (tenantId id : String) : Svc τ (Option (WebhookDelivery τ)) := do
  let delivery : Option (WebhookDelivery τ) ← (WebhookOp.getDelivery id).perform
  pure (ofTenant WebhookDelivery.tenantId tenantId delivery)

/-! ### Settlement -/

/-- `failureResult`. -/
def failureResult (error : JsError) : WebhookDeliveryResult :=
  match error with
  | .authority e =>
    match e.outcome with
    | some outcome => outcome
    | none =>
      let code := match e.code with
        | .unauthenticated | .notFound => .denied
        | .custodyReadOnly => .authorityUnavailable
        | code => code
      { success := false, error := some e.message, code := some code }
  | .conflict message | .validation message | .other message =>
    { success := false, error := some message, code := some .providerError }

/-- A provider's answer that is not worth another attempt. -/
def isTerminal (statusCode : Option Nat) : Bool :=
  statusCode.any fun code => (300 ≤ code && code < 400) ||
    (400 ≤ code && code < 500 && code != 408 && code != 429)

/-- `result.error || 'Unknown error'`. -/
def errorText (result : WebhookDeliveryResult) : String :=
  (keepPresent result.error).getD "Unknown error"

/-- `${result.code}: ${result.error}`. -/
def codeAndError (code : ServiceFailureCode) (result : WebhookDeliveryResult) : String :=
  code.text ++ ": " ++ result.error.getD "undefined"

/-- The delay before the next attempt. -/
def retryDelayMs (attemptCount : Nat) : Nat := INITIAL_RETRY_DELAY_MS * 2 ^ attemptCount

/-- Write a settlement under the claimed version. -/
def settle (claimed : WebhookDelivery τ) (updates : DeliveryUpdate τ) : Svc τ Unit := do
  let _ : Option (WebhookDelivery τ) ←
    (WebhookOp.updateDelivery claimed.id claimed.version updates).perform
  pure ()

/-- The audit record of a settlement. -/
def auditSettled (claimed : WebhookDelivery τ) (type : String) (success : Bool)
    (reason : Option String) : Svc τ Unit :=
  audit { type, deliveryId := some claimed.id, endpointId := some claimed.endpointId
          tenantId := claimed.tenantId
          principalId := (claimed.principal.map DurablePrincipal.principalId).getD "anonymous"
          success, reason }

/-- `recordAttempt`. -/
def recordAttempt (claimed : WebhookDelivery τ) (result : WebhookDeliveryResult) : Svc τ Unit := do
  let t ← now
  if result.success then do
    settle claimed { status := some .delivered, deliveredAt := some (some t)
                     attemptCount := some (claimed.attemptCount + 1)
                     lastStatusCode := some result.statusCode }
    auditSettled claimed "webhook.delivery.delivered" true none
  else
    match result.code with
    | some .denied => do
      settle claimed { status := some .failed
                       lastError := some (some (codeAndError .denied result)) }
      auditSettled claimed "webhook.delivery.denied" false (some "DENIED")
    | some .invalidRequest => do
      settle claimed { status := some .failed
                       lastError := some (some (codeAndError .invalidRequest result)) }
      auditSettled claimed "webhook.delivery.failed" false (some "INVALID_REQUEST")
    | code =>
      if code = some .authorityUnavailable ∨ code = some .authorizationTimeout then do
        -- no effect happened; retry later without consuming a provider attempt
        let t ← now
        let nextAttemptAt ← check (laterThan t INITIAL_RETRY_DELAY_MS)
        settle claimed { status := some .retrying, nextAttemptAt := some (some nextAttemptAt)
                         lastError := some (some (codeAndError (code.getD .denied) result)) }
      else if isTerminal result.statusCode ∨
          ((claimed.attemptCount + 1 : Nat) : Int) ≥ service.maxRetryAttempts then do
        settle claimed { status := some .failed, lastError := some (some (errorText result))
                         attemptCount := some (claimed.attemptCount + 1)
                         lastStatusCode := some result.statusCode }
        auditSettled claimed "webhook.delivery.failed" false (some "PROVIDER_ERROR")
      else do
        let t ← now
        let nextAttemptAt ← check (laterThan t (retryDelayMs claimed.attemptCount))
        settle claimed { status := some .retrying, nextAttemptAt := some (some nextAttemptAt)
                         lastError := some (some (errorText result))
                         attemptCount := some (claimed.attemptCount + 1)
                         lastStatusCode := some result.statusCode }

/-! ### Delivery -/

/-- `deliveryBody`. -/
def deliveryBody (delivery : WebhookDelivery τ) : String :=
  node.jsonStringify (.obj [("id", .str delivery.id), ("eventId", .str delivery.eventId),
    ("type", .str delivery.eventType), ("data", delivery.payload),
    ("timestamp", .str (Timestamp.text delivery.createdAt))])

/-- What `performHttpDelivery` makes of a provider's answer. -/
def deliveryOutcome (reply : ProviderReply) : WebhookDeliveryResult :=
  match reply with
  | .status code =>
    let http := "HTTP " ++ toString code
    if 200 ≤ code ∧ code < 300 then { success := true, statusCode := some code }
    else if 300 ≤ code ∧ code < 400 then
      { success := false, statusCode := some code, code := some .providerError
        error := some (http ++ ": redirects are not followed (destination policy)") }
    else if code = 408 ∨ code = 429 ∨ 500 ≤ code then
      { success := false, statusCode := some code, code := some .providerError
        error := some (http ++ " (retryable)") }
    else { success := false, statusCode := some code, code := some .providerError
           error := some http }
  | .networkError message =>
    { success := false, code := some .providerError
      error := some ("Network error: " ++ message) }
  | .timeout =>
    { success := false, code := some .providerError, error := some "Request timeout (retryable)" }

/-- The effect of one attempt: the destination is checked again, the body is signed, and
only then posted. -/
def attemptEffect (gateway : ServiceGateway) (endpoint : WebhookEndpoint τ) (credentialRef : String)
    (claimed : WebhookDelivery τ) (tools : EffectTools τ) : Svc τ WebhookDeliveryResult := do
  let destination : ValidatedDestination ← (HostOp.validateDestination endpoint.url).perform
  let payload := deliveryBody node claimed
  let signature ← gateway.withCredential tools credentialRef "webhook.sign" fun value => do
    let secret ← check (signingSecretValue value)
    pure (signWebhookPayload node secret payload)
  let reply : ProviderReply ← (HostOp.post claimed destination payload signature).perform
  let outcome := deliveryOutcome reply
  if outcome.success then pure outcome
  else throw (.authority { code := .providerError
                           message := outcome.error.getD "Webhook delivery failed"
                           outcome := some outcome })

/-- One claimed attempt: authorized as the delivery's durable principal, then performed. -/
def attemptClaimed (gateway : ServiceGateway) (delivery claimed : WebhookDelivery τ)
    (durable : DurablePrincipal) (endpoint : WebhookEndpoint τ) (credentialRef tenantId : String) :
    Svc τ WebhookDeliveryResult := do
  let principal ← mintVerifiedPrincipal
    (durable.claims (delivery.id ++ ":" ++ toString (claimed.attemptCount + 1))) .delivery
  let result ← Task.tryCatch
    (match node.urlOrigin endpoint.url with
    | none => throw (.other "Invalid URL")
    | some origin =>
      gateway.execute "webhooks.deliver" (.of principal)
        { type := "webhook_delivery", tenantId, id := some delivery.id
          attributes := [("endpointId", endpoint.id), ("destination", origin),
            ("eventType", delivery.eventType), ("credentialRef", credentialRef)] }
        { service := "webhooks", provider := some "webhook", credentialRef := some credentialRef }
        fun _ tools => attemptEffect node gateway endpoint credentialRef claimed tools)
    fun error => pure (failureResult error)
  service.recordAttempt claimed result
  pure result

/-- Settle a delivery that cannot be attempted, under the version it was read at. -/
def failUnclaimed (deliveryId : String) (delivery : WebhookDelivery τ) (lastError : String) :
    Svc τ Unit := do
  let _ : Option (WebhookDelivery τ) ← (WebhookOp.updateDelivery deliveryId delivery.version
    { status := some .failed, lastError := some (some lastError) }).perform
  pure ()

/-- `deliverWebhook`, once its endpoint may be delivered to: attest, claim, attempt. -/
def deliverTo (gateway : ServiceGateway) (tenantId deliveryId : String) (delivery : WebhookDelivery τ)
    (durable : DurablePrincipal) (endpoint : WebhookEndpoint τ) (credentialRef : String) :
    Svc τ WebhookDeliveryResult := do
  let attested ← (gateway.attest durable ["webhooks.emit", "webhooks.replay"]).attempt
  match attested with
  | .error error => do
    failUnclaimed deliveryId delivery ("DENIED: " ++ error.message)
    audit { type := "webhook.delivery.denied", deliveryId := some deliveryId
            endpointId := some endpoint.id, tenantId, principalId := durable.principalId
            success := false, reason := some "unattested_principal" }
    pure (failureResult error)
  | .ok _ => do
    let claimed : Option (WebhookDelivery τ) ←
      (WebhookOp.claimDelivery deliveryId delivery.version).perform
    match claimed with
    | none => pure { success := true, statusCode := some 200 }
    | some claimed =>
      service.attemptClaimed node gateway delivery claimed durable endpoint credentialRef tenantId

/-- `deliverWebhook`, once the delivery was read and is not settled or being attempted. -/
def deliverRead (tenantId deliveryId : String) (delivery : WebhookDelivery τ) :
    Svc τ WebhookDeliveryResult := do
  let invalid (code : ServiceFailureCode) (error : String) : WebhookDeliveryResult :=
    { success := false, error := some error, code := some code }
  let endpoint : Option (WebhookEndpoint τ) ← (WebhookOp.getEndpoint delivery.endpointId).perform
  match ofTenant WebhookEndpoint.tenantId tenantId endpoint with
  | none => pure (invalid .invalidRequest "Endpoint not found")
  | some endpoint => do
    let gateway ← check service.gateway
    if endpoint.applicationId ≠ some gateway.application then
      pure (invalid .denied "Endpoint belongs to a different application")
    else if endpoint.disabledAt.isSome then do
      failUnclaimed deliveryId delivery "Endpoint is disabled"
      pure (invalid .invalidRequest "Endpoint is disabled")
    else
      match delivery.principal.filter fun p => p.tenantId == tenantId with
      | none => do
        failUnclaimed deliveryId delivery "DENIED: delivery has no durable execution principal"
        audit { type := "webhook.delivery.denied", deliveryId := some deliveryId
                endpointId := some endpoint.id, tenantId, principalId := "anonymous"
                success := false, reason := some "anonymous" }
        pure (invalid .denied "Delivery has no durable execution principal")
      | some durable =>
        match keepPresent endpoint.signingCredentialRef with
        | none => do
          failUnclaimed deliveryId delivery
            "Endpoint has no signing credential reference; re-register it"
          pure (invalid .invalidRequest "Endpoint has no signing credential reference")
        | some credentialRef =>
          service.deliverTo node gateway tenantId deliveryId delivery durable endpoint credentialRef

/-- `deliverWebhook`. -/
def deliverWebhook (tenantId deliveryId : String) : Svc τ WebhookDeliveryResult := do
  let delivery : Option (WebhookDelivery τ) ← (WebhookOp.getDelivery deliveryId).perform
  match delivery with
  | none => pure { success := false, error := some "Delivery not found", code := some .invalidRequest }
  | some delivery =>
    if delivery.tenantId ≠ tenantId then
      pure { success := false, error := some "Tenant mismatch", code := some .denied }
    else if delivery.status = .delivered ∨ delivery.status = .delivering then
      pure { success := true, statusCode := some 200 }
    else service.deliverRead node tenantId deliveryId delivery

/-- The update that resets a delivery. -/
def replayUpdate (principal : DurablePrincipal) : DeliveryUpdate τ :=
  { status := some .pending, attemptCount := some 0, nextAttemptAt := some none
    lastAttemptAt := some none, deliveredAt := some none, lastStatusCode := some none
    lastError := some none, principal := some (some principal) }

/-- `replayWebhookDelivery`. -/
def replayWebhookDelivery (tenantId deliveryId : String) (caller : PrincipalInput) :
    Svc τ (Option (WebhookDelivery τ)) := do
  let principal ← requireVerifiedPrincipal caller
  if principal.tenantId ≠ tenantId then
    throw (serviceError .denied "Cross-tenant service operation denied"
      { reason := some "tenant_mismatch" })
  else do
    let delivery ← getWebhookDelivery tenantId deliveryId
    match delivery with
    | none => pure none
    | some delivery => do
      let endpoint : Option (WebhookEndpoint τ) ←
        (WebhookOp.getEndpoint delivery.endpointId).perform
      match endpoint with
      | none => pure none
      | some endpoint =>
        if endpoint.disabledAt.isSome then pure none
        else do
          let gateway ← check service.gateway
          if endpoint.applicationId ≠ some gateway.application then pure none
          else
            gateway.execute "webhooks.replay" (.of principal)
              { type := "webhook_delivery", tenantId, id := some delivery.id
                attributes := [("endpointId", endpoint.id)] }
              { service := "webhooks" }
              fun context _ => do
                let updated : Option (WebhookDelivery τ) ←
                  (WebhookOp.updateDelivery deliveryId delivery.version (replayUpdate
                    (toDurablePrincipal principal none
                      (some context.authorization.decisionId)))).perform
                match updated with
                | none => pure none
                | some updated => do
                  audit { type := "webhook.delivery.replayed", deliveryId := some updated.id
                          endpointId := some updated.endpointId, tenantId
                          principalId := principal.principalId, success := true }
                  pure (some updated)

/-! ### The managed loop -/

/-- The filter of the managed delivery loop. -/
def selects (now : τ) (delivery : WebhookDelivery τ) : Bool :=
  delivery.status == .pending ||
    (delivery.status == .retrying && delivery.nextAttemptAt.all fun at_ => decide (at_ ≤ now))

/-- One round of the managed delivery loop of the default tenant. -/
def managedRound (tenantId : String) : Svc τ Unit := do
  let deliveries : List (WebhookDelivery τ) ←
    (WebhookOp.listDeliveries tenantId none none).perform
  let t ← now
  Task.forEach (fun delivery : WebhookDelivery τ => do
    if selects t delivery then do
      let _ ← service.deliverWebhook node delivery.tenantId delivery.id
      pure ()
    else pure ()) deliveries

/-! ### Inbound -/

/-- `requireIntegrationStore`. -/
def requireIntegrationStore : Except JsError Unit :=
  if service.integrationStore then .ok ()
  else .error (serviceError .authorityUnavailable "Inbound webhook integrations are not configured")

/-- `registerIntegration`. -/
def registerIntegration (input : RegisterWebhookIntegrationInput) (caller : PrincipalInput) :
    Svc τ (WebhookIntegration τ) := do
  let principal ← requireVerifiedPrincipal caller
  check (rejectCallerActor input.raw principal)
  let tenantId ← check (resolveTenant input.tenantId principal)
  match input.provider.text?.filter isProvider with
  | none => throw (serviceError .invalidRequest "provider must be a lowercase identifier")
  | some provider => do
    let credentialRef ← check (requireCredentialRef input.signingCredentialRef "signingCredentialRef")
    check service.requireIntegrationStore
    let gateway ← check service.gateway
    gateway.execute "webhooks.integrations.register" (.of principal)
      { type := "webhook_integration", tenantId
        attributes := [("provider", provider), ("credentialRef", credentialRef)] }
      { service := "webhooks", provider := some provider, credentialRef := some credentialRef }
      fun context _ => do
        let id ← randomUUID
        let createdAt ← now
        let integration : WebhookIntegration τ := {
          id, tenantId, applicationId := context.application, provider
          principalId := "integration:" ++ provider, signingCredentialRef := credentialRef
          createdAt, createdBy := principal.principalId, version := 1 }
        (WebhookOp.createIntegration integration).perform
        audit { type := "webhook.integration.registered", integrationId := some integration.id
                tenantId, principalId := principal.principalId, success := true }
        pure integration

/-- An inbound request that carries what `receiveWebhook` asks for. -/
structure InboundMessage where
  eventId : String
  timestamp : String
  signature : String
  rawBody : String
  deriving DecidableEq, Repr

/-- The headers and the body of an inbound request. -/
def inboundMessage (request : InboundWebhookRequest) : Except JsError InboundMessage :=
  match keepPresent (header request.headers "x-appport-event-id"),
    keepPresent (header request.headers "x-appport-timestamp"),
    keepPresent (header request.headers "x-appport-signature"), request.rawBody with
  | some eventId, some timestamp, some signature, some rawBody =>
    .ok { eventId, timestamp, signature, rawBody }
  | _, _, _, _ => .error (serviceError .invalidRequest
      "Inbound webhook requires event id, timestamp, signature, and body")

/-- What the signature covers. -/
def InboundMessage.signed (message : InboundMessage) : String :=
  message.timestamp ++ "." ++ message.rawBody

/-- The key a received event is remembered under. -/
def replayKey (integrationId eventId : String) : String :=
  node.sha256Hex (integrationId ++ ":" ++ eventId)

/-- The claims of the integration principal. -/
def integrationClaims (integration : WebhookIntegration τ) : PrincipalClaims where
  principalId := integration.principalId
  principalType := "integration"
  tenantId := integration.tenantId
  applicationId := some integration.applicationId

/-- Hand the event to the application. -/
def handleInbound (integration : WebhookIntegration τ) (message : InboundMessage) (sentAt : τ)
    (principal : VerifiedPrincipal) (context : ServiceExecutionContext τ) :
    Svc τ InboundWebhookResult :=
  match node.jsonParse message.rawBody with
  | none => throw (serviceError .invalidRequest "Inbound webhook body must be JSON")
  | some payload =>
    if service.inboundHandlers.contains integration.provider then do
      let event : InboundWebhookEvent τ := {
        integrationId := integration.id, provider := integration.provider
        eventId := message.eventId, timestamp := sentAt, payload }
      (HostOp.startInboundHandler event principal context).perform
      let handled : JsValue ← (HostOp.awaitInboundHandler event).perform
      pure { accepted := true, eventId := message.eventId, result := handled }
    else pure { accepted := true, eventId := message.eventId }

/-- The record that makes an event accepted. -/
def inboundRecord (integration : WebhookIntegration τ) (message : InboundMessage)
    (sentAt acceptedAt : τ) : InboundWebhookRecord τ where
  id := replayKey node integration.id message.eventId
  integrationId := integration.id
  provider := integration.provider
  eventId := message.eventId
  eventTimestamp := sentAt
  acceptedAt := acceptedAt
  tenantId := integration.tenantId

/-- The effect of `receiveWebhook`: verify the signature, reject replays, and hand the
event to the application. -/
def receiveEffect (gateway : ServiceGateway) (integration : WebhookIntegration τ)
    (message : InboundMessage) (sentAt : τ) (principal : VerifiedPrincipal)
    (context : ServiceExecutionContext τ) (tools : EffectTools τ) : Svc τ InboundWebhookResult := do
  let valid ← gateway.withCredential tools integration.signingCredentialRef "webhook.verify"
    fun value => do
      let secret ← check (signingSecretValue value)
      pure (verifyWebhookSignature node secret message.signed message.signature)
  if valid = false then
    throw (serviceError .denied "Inbound webhook signature is invalid"
      { reason := some "invalid_signature" })
  else do
    let acceptedAt ← now
    let accepted : Bool ← (WebhookOp.acceptInbound
      (inboundRecord node integration message sentAt acceptedAt)).perform
    if accepted then service.handleInbound node integration message sentAt principal context
    else throw (serviceError .denied "Inbound webhook event was already accepted"
      { reason := some "replayed" })

/-- The audit record of an inbound request. -/
def auditInbound (integration : WebhookIntegration τ) (accepted : Bool) (reason : Option String) :
    Svc τ Unit :=
  audit { type := if accepted then "webhook.inbound.accepted" else "webhook.inbound.rejected"
          integrationId := some integration.id, tenantId := integration.tenantId
          principalId := integration.principalId, success := accepted, reason }

/-- Why an inbound request was rejected. -/
def rejectionReason (error : JsError) : String :=
  match error with
  | .authority e => e.details.reason.getD e.code.text
  | .conflict _ | .validation _ | .other _ => "handler_failed"

/-- `receiveWebhook`, once its integration and its message stand. -/
def receiveMessage (integration : WebhookIntegration τ) (message : InboundMessage) :
    Svc τ InboundWebhookResult := do
  let stale : Svc τ InboundWebhookResult := do
    auditInbound integration false (some "stale_timestamp")
    throw (serviceError .denied "Inbound webhook timestamp is outside the accepted window"
      { reason := some "stale_timestamp" })
  match Timestamp.parse (τ := τ) message.timestamp with
  | none => stale
  | some sentAt => do
    let t ← now
    if Timestamp.within service.inboundToleranceMs t sentAt = false then stale
    else do
      let principal ← mintVerifiedPrincipal (integrationClaims integration) .integration
      Task.tryCatch
        (do
          let gateway ← check service.gateway
          let result ← gateway.execute "webhooks.receive" (.of principal)
            { type := "webhook_integration", tenantId := integration.tenantId
              id := some integration.id
              attributes := [("provider", integration.provider), ("eventId", message.eventId),
                ("credentialRef", integration.signingCredentialRef)] }
            { service := "webhooks", provider := some integration.provider
              credentialRef := some integration.signingCredentialRef }
            fun context tools =>
              service.receiveEffect node gateway integration message sentAt principal context tools
          auditInbound integration true none
          pure result)
        fun error => do
          (auditInbound integration false (some (rejectionReason error))).ignore
          throw error

/-- The integration of a request; none is asked for under an id that is not a string. -/
def findIntegration (id : Option String) : Svc τ (Option (WebhookIntegration τ)) :=
  match id with
  | some id => (WebhookOp.getIntegration id).perform
  | none => pure none

/-- `receiveWebhook`. -/
def receiveWebhook (request : InboundWebhookRequest) : Svc τ InboundWebhookResult := do
  check service.requireIntegrationStore
  if service.replayStore = false then
    throw (serviceError .authorityUnavailable "Inbound webhooks require a durable replay store")
  else do
    let integration ← findIntegration request.integrationId
    match integration.filter fun integration => integration.disabledAt.isNone with
    | none => throw (serviceError .notFound "Webhook integration not found")
    | some integration => do
      let message ← check (inboundMessage request)
      service.receiveMessage node integration message

end WebhookService

end AppPort
