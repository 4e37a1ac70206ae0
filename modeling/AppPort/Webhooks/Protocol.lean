import AppPort.Authority.Enforcement
import AppPort.Runtime.Transaction
import AppPort.Webhooks.Service

/-!
# The webhook platform

The entry points of the webhook service over one store, run by any number of hosts, and
the calls each of them may make.

Two groups of calls matter: `handlesInbound` (accepting an event, invoking its handler)
is `receiveWebhook`'s alone, and `handlesDeliveries` (creating, claiming and updating
deliveries, and posting them) is never its. So a protocol about one group meets the
other half of the service only through `uses_outbound` or `uses_inbound`.
-/

namespace AppPort

open Effects Effects.Platform

variable {τ : Type} [Timestamp τ]

/-! ## The platform -/

/-- The entry points of the webhook service, and of what works on its store. -/
inductive WebhookEntry (τ : Type) where
  | createWebhookEndpoint (input : CreateWebhookEndpointInput) (caller : PrincipalInput)
  | disableWebhookEndpoint (input : DisableWebhookEndpointInput) (caller : PrincipalInput)
  | emitWebhookEvent (input : EmitWebhookEventInput) (caller : PrincipalInput)
  | deliverWebhook (tenantId deliveryId : String)
  | managedRound (tenantId : String)
  | replayWebhookDelivery (tenantId deliveryId : String) (caller : PrincipalInput)
  | registerIntegration (input : RegisterWebhookIntegrationInput) (caller : PrincipalInput)
  | receiveWebhook (request : InboundWebhookRequest)
  /-- `services.gateway.authorize`: where the contexts of a transaction come from. -/
  | authorize (capability : String) (caller : PrincipalInput) (resource : ServiceResource)
      (requestId : String)
  /-- Any authentication path. -/
  | authenticate (claims : PrincipalClaims) (verifiedBy : PrincipalVerification)
  | transaction (calls : List (TransactionCall τ × Bool))

/-- An entry point of a host: its webhook service is the host's configuration. -/
structure WebhookCall (τ : Type) where
  service : WebhookService
  entry : WebhookEntry τ

/-- Run a task for its effects. -/
def forEffects {α : Type} (t : Svc τ α) : Svc τ Unit := t.bind fun _ => pure ()

def webhookBody (node : NodeRuntime) (call : WebhookCall τ) : Svc τ Unit :=
  match call.entry with
  | .createWebhookEndpoint input caller =>
    forEffects (call.service.createWebhookEndpoint input caller)
  | .disableWebhookEndpoint input caller =>
    forEffects (call.service.disableWebhookEndpoint input caller)
  | .emitWebhookEvent input caller => forEffects (call.service.emitWebhookEvent input caller)
  | .deliverWebhook tenantId deliveryId =>
    forEffects (call.service.deliverWebhook node tenantId deliveryId)
  | .managedRound tenantId => call.service.managedRound node tenantId
  | .replayWebhookDelivery tenantId deliveryId caller =>
    forEffects (call.service.replayWebhookDelivery tenantId deliveryId caller)
  | .registerIntegration input caller => forEffects (call.service.registerIntegration input caller)
  | .receiveWebhook request => forEffects (call.service.receiveWebhook node request)
  | .authorize capability caller resource requestId =>
    match call.service.authority with
    | some gateway => forEffects (gateway.authorize capability caller resource requestId)
    | none => pure ()
  | .authenticate claims verifiedBy => forEffects (mintVerifiedPrincipal claims verifiedBy)
  | .transaction calls => transaction call.service.authority calls

/-- What happens to the world besides the calls. -/
inductive WebhookEnv (τ : Type) where
  /-- Time passes. -/
  | tick (t : τ)
  /-- Anything that is not the webhook service's changes. -/
  | others (f : World τ → World τ)

def webhookEnv (move : WebhookEnv τ) (w : World τ) : Option (World τ) :=
  match move with
  | .tick t => if w.clock ≤ t then some { w with clock := t } else none
  | .others f => some { f w with clock := w.clock, webhooks := w.webhooks }

/-- The webhook service, run by any number of hosts over one store. -/
abbrev webhookPlatform (node : NodeRuntime) (τ : Type) [Timestamp τ] : Platform :=
  appPlatform (webhookBody (τ := τ) node) webhookEnv

/-- The environment leaves the webhook tables alone, and time does not run back. -/
theorem webhookEnv_keeps {move : WebhookEnv τ} {w w' : World τ} (h : webhookEnv move w = some w') :
    w'.webhooks = w.webhooks ∧ w.clock ≤ w'.clock := by
  cases move with
  | tick t =>
    simp only [webhookEnv] at h
    split at h
    · next hle =>
      cases h
      exact ⟨rfl, hle⟩
    · cases h
  | others f =>
    cases h
    exact ⟨rfl, le_refl _⟩

/-! ## Two groups of calls -/

/-- Accepting an inbound event, and its handler. -/
def AppOp.handlesInbound : AppOp τ → Bool
  | .webhooks (.acceptInbound _) => true
  | .host (.startInboundHandler ..) | .host (.awaitInboundHandler _) => true
  | _ => false

/-- Writing deliveries, and posting them. -/
def AppOp.handlesDeliveries : AppOp τ → Bool
  | .webhooks (.createDeliveries _) | .webhooks (.claimDelivery ..) => true
  | .webhooks (.updateDelivery ..) => true
  | .commit _ => true
  | .host (.post ..) => true
  | _ => false

/-- Configuration, and the metadata of stored credentials: no call of the webhook service. -/
def AppOp.configures : AppOp τ → Bool
  | .configuration _ | .secretMetadata _ => true
  | _ => false

/-- The calls that are in neither group. -/
structure WebhookCalls (calls : Set (AppOp τ)) : Prop where
  quiet : ∀ op : AppOp τ, op.handlesInbound = false → op.handlesDeliveries = false →
    op.configures = false → op ∈ calls

section uses

variable {calls : Set (AppOp τ)}

section quiet

variable (hcalls : WebhookCalls calls)

include hcalls

omit [Timestamp τ] in
theorem WebhookCalls.authority : authorityCalls ⊆ calls := by
  rintro op ⟨o, rfl⟩
  exact hcalls.quiet _ rfl rfl rfl

omit [Timestamp τ] in
theorem WebhookCalls.uses {α : Type} {t : Svc τ α}
    (h : Task.Uses (S := services τ) authorityCalls t) : Task.Uses (S := services τ) calls t :=
  h.mono hcalls.authority

omit [Timestamp τ] in
/-- One call of neither group. -/
theorem WebhookCalls.uses_perform {op : AppOp τ} (hin : op.handlesInbound = false)
    (hout : op.handlesDeliveries = false) (hconfigures : op.configures = false := by rfl) :
    Task.Uses (S := services τ) calls (Task.perform (S := services τ) op) :=
  Task.uses_perform (hcalls.quiet op hin hout hconfigures)

omit [Timestamp τ] in
theorem WebhookCalls.uses_audit (fields : WebhookService.AuditFields) :
    Task.Uses (S := services τ) calls (WebhookService.audit fields) := by
  refine Task.Uses.bind (hcalls.uses uses_randomUUID) fun id => ?_
  exact Task.Uses.bind (hcalls.uses uses_now) fun timestamp => hcalls.uses_perform rfl rfl

theorem WebhookCalls.uses_execute {α : Type} (gateway : ServiceGateway) (name : String)
    (input : PrincipalInput) (resource : ServiceResource) (options : ExecuteOptions)
    {effect : ServiceExecutionContext τ → EffectTools τ → Svc τ α}
    (heffect : ∀ context tools, Task.Uses (S := services τ) calls (effect context tools)) :
    Task.Uses (S := services τ) calls (gateway.execute name input resource options effect) :=
  gateway.uses_execute hcalls.authority name input resource options heffect

theorem WebhookCalls.uses_withCredential {α : Type} (gateway : ServiceGateway)
    (tools : EffectTools τ) (ref purpose : String) {use : JsValue → Svc τ α}
    (huse : ∀ value, Task.Uses (S := services τ) calls (use value)) :
    Task.Uses (S := services τ) calls (gateway.withCredential tools ref purpose use) :=
  gateway.uses_withCredential hcalls.authority (fun _ => hcalls.quiet _ rfl rfl rfl) tools ref purpose
    huse

omit hcalls [Timestamp τ] in
/-- A check that may throw, and what follows. -/
theorem uses_check {α β : Type} {r : Except JsError α} {f : α → Svc τ β}
    (hf : ∀ a, Task.Uses (S := services τ) calls (f a)) :
    Task.Uses (S := services τ) calls ((check r).bind f) :=
  Task.Uses.bind (Task.uses_settled _ _) hf

namespace WebhookService

variable (service : WebhookService)

theorem uses_createWebhookEndpoint (input : CreateWebhookEndpointInput) (caller : PrincipalInput) :
    Task.Uses (S := services τ) calls (service.createWebhookEndpoint input caller) := by
  unfold createWebhookEndpoint
  refine Task.Uses.bind (hcalls.uses (uses_requireVerifiedPrincipal _)) fun principal => ?_
  split
  · refine uses_check fun _ => uses_check fun tenantId => ?_
    split
    · refine uses_check fun credentialRef => ?_
      refine Task.Uses.bind (hcalls.uses_perform rfl rfl) fun destination => ?_
      refine uses_check fun gateway => hcalls.uses_execute gateway _ _ _ _ fun context _ => ?_
      refine Task.Uses.bind (hcalls.uses uses_now) fun createdAt => ?_
      refine Task.Uses.bind (hcalls.uses uses_randomUUID) fun id => ?_
      refine Task.Uses.bind (hcalls.uses_perform rfl rfl) fun _ => ?_
      exact (hcalls.uses_audit _).bind fun _ => trivial
    · trivial
    · trivial
  · trivial

theorem uses_disableWebhookEndpoint (input : DisableWebhookEndpointInput) (caller : PrincipalInput) :
    Task.Uses (S := services τ) calls (service.disableWebhookEndpoint input caller) := by
  unfold disableWebhookEndpoint
  refine Task.Uses.bind (hcalls.uses (uses_requireVerifiedPrincipal _)) fun principal => ?_
  refine uses_check fun _ => uses_check fun tenantId => ?_
  refine Task.Uses.bind ((hcalls.uses_perform rfl rfl).bind fun _ => trivial) fun endpoint => ?_
  split
  · trivial
  · refine uses_check fun gateway => ?_
    split
    · trivial
    split
    · trivial
    · refine hcalls.uses_execute gateway _ _ _ _ fun _ _ => ?_
      refine Task.Uses.bind (hcalls.uses uses_now) fun disabledAt => ?_
      refine Task.Uses.bind (hcalls.uses_perform rfl rfl) fun updated => ?_
      split
      · trivial
      · exact (hcalls.uses_audit _).bind fun _ => trivial

theorem uses_registerIntegration (input : RegisterWebhookIntegrationInput)
    (caller : PrincipalInput) :
    Task.Uses (S := services τ) calls (service.registerIntegration input caller) := by
  unfold registerIntegration
  refine Task.Uses.bind (hcalls.uses (uses_requireVerifiedPrincipal _)) fun principal => ?_
  refine uses_check fun _ => uses_check fun tenantId => ?_
  split
  · trivial
  · refine uses_check fun credentialRef => uses_check fun _ => uses_check fun gateway => ?_
    refine hcalls.uses_execute gateway _ _ _ _ fun context _ => ?_
    refine Task.Uses.bind (hcalls.uses uses_randomUUID) fun id => ?_
    refine Task.Uses.bind (hcalls.uses uses_now) fun createdAt => ?_
    refine Task.Uses.bind (hcalls.uses_perform rfl rfl) fun _ => ?_
    exact (hcalls.uses_audit _).bind fun _ => trivial

omit [Timestamp τ] in
theorem uses_emittedDeliveries (delivery : (endpointId id : String) → WebhookDelivery τ) :
    (endpoints : List (WebhookEndpoint τ)) →
    Task.Uses (S := services τ) calls (emittedDeliveries delivery endpoints)
  | [] => trivial
  | _ :: rest => Task.Uses.bind (hcalls.uses uses_randomUUID) fun _ =>
    (uses_emittedDeliveries delivery rest).bind fun _ => trivial

theorem uses_emitWebhookEvent (hcreate : ∀ ds, .webhooks (.createDeliveries ds) ∈ calls)
    (input : EmitWebhookEventInput) (caller : PrincipalInput) :
    Task.Uses (S := services τ) calls (service.emitWebhookEvent input caller) := by
  unfold emitWebhookEvent
  refine Task.Uses.bind (hcalls.uses (uses_requireVerifiedPrincipal _)) fun principal => ?_
  refine uses_check fun _ => uses_check fun tenantId => ?_
  split
  · trivial
  · refine uses_check fun gateway => hcalls.uses_execute gateway _ _ _ _ fun context _ => ?_
    refine Task.Uses.bind (hcalls.uses_perform rfl rfl) fun endpoints => ?_
    split
    · trivial
    · refine Task.Uses.bind (hcalls.uses uses_randomUUID) fun eventId => ?_
      refine Task.Uses.bind (hcalls.uses uses_now) fun createdAt => ?_
      refine Task.Uses.bind (uses_emittedDeliveries hcalls _ _) fun deliveries => ?_
      refine Task.Uses.bind (Task.uses_perform (hcreate _)) fun _ => ?_
      exact (Task.Uses.forEach deliveries fun delivery _ => hcalls.uses_audit _).bind fun _ => trivial

end WebhookService

theorem uses_webhookAuthorize (service : WebhookService) (capability : String)
    (caller : PrincipalInput) (resource : ServiceResource) (requestId : String) :
    Task.Uses (S := services τ) calls
      (match service.authority with
        | some gateway => forEffects (gateway.authorize capability caller resource requestId)
        | none => pure ()) := by
  split
  · next gateway _ => exact (hcalls.uses (gateway.uses_authorize ..)).bind fun _ => trivial
  · trivial

end quiet

section outbound

/-- Everything but inbound events. -/
structure OutboundCalls (calls : Set (AppOp τ)) : Prop extends WebhookCalls calls where
  deliveries : ∀ op : AppOp τ, op.handlesDeliveries = true → op ∈ calls

variable (hcalls : OutboundCalls calls)

include hcalls

omit [Timestamp τ] in
/-- One call that handles deliveries. -/
theorem OutboundCalls.uses_perform {op : AppOp τ} (hout : op.handlesDeliveries = true) :
    Task.Uses (S := services τ) calls (Task.perform (S := services τ) op) :=
  Task.uses_perform (hcalls.deliveries op hout)

namespace WebhookService

variable (node : NodeRuntime) (service : WebhookService)

omit [Timestamp τ] in
theorem uses_settle (claimed : WebhookDelivery τ) (updates : DeliveryUpdate τ) :
    Task.Uses (S := services τ) calls (settle claimed updates) :=
  (hcalls.uses_perform rfl).bind fun _ => trivial

theorem uses_recordAttempt (claimed : WebhookDelivery τ) (result : WebhookDeliveryResult) :
    Task.Uses (S := services τ) calls (service.recordAttempt claimed result) := by
  unfold recordAttempt
  have hsettled : ∀ updates type success reason, Task.Uses (S := services τ) calls
      ((settle claimed updates).bind fun _ => auditSettled claimed type success reason) :=
    fun _ _ _ _ => (uses_settle hcalls _ _).bind fun _ => hcalls.uses_audit _
  have hretried : ∀ ms (updates : τ → DeliveryUpdate τ), Task.Uses (S := services τ) calls
      (now.bind fun t => (check (laterThan t ms)).bind fun at_ => settle claimed (updates at_)) :=
    fun _ _ => (hcalls.uses uses_now).bind fun _ => uses_check fun _ => uses_settle hcalls _ _
  refine Task.Uses.bind (hcalls.uses uses_now) fun t => ?_
  split
  · exact hsettled ..
  split
  · exact hsettled ..
  · exact hsettled ..
  split
  · exact hretried INITIAL_RETRY_DELAY_MS _
  split
  · exact hsettled ..
  · exact hretried (retryDelayMs claimed.attemptCount) _

theorem uses_attemptClaimed (gateway : ServiceGateway) (delivery claimed : WebhookDelivery τ)
    (durable : DurablePrincipal) (endpoint : WebhookEndpoint τ) (credentialRef tenantId : String) :
    Task.Uses (S := services τ) calls
      (service.attemptClaimed node gateway delivery claimed durable endpoint credentialRef tenantId) := by
  unfold attemptClaimed
  refine Task.Uses.bind (hcalls.uses (uses_mintVerifiedPrincipal _ _)) fun principal => ?_
  refine Task.Uses.bind (Task.Uses.tryCatch ?_ fun error => trivial) fun result =>
    (service.uses_recordAttempt hcalls _ _).bind fun _ => trivial
  split
  · trivial
  · refine hcalls.uses_execute gateway _ _ _ _ fun _ tools => ?_
    unfold attemptEffect
    refine Task.Uses.bind (hcalls.toWebhookCalls.uses_perform rfl rfl) fun destination => ?_
    refine Task.Uses.bind (hcalls.uses_withCredential gateway tools _ _ fun value =>
      uses_check fun secret => trivial) fun signature => ?_
    refine Task.Uses.bind (hcalls.uses_perform rfl) fun reply => ?_
    dsimp only
    split <;> trivial

theorem uses_deliverWebhook (tenantId deliveryId : String) :
    Task.Uses (S := services τ) calls (service.deliverWebhook node tenantId deliveryId) := by
  have hfail : ∀ delivery lastError, Task.Uses (S := services τ) calls
      (failUnclaimed deliveryId delivery lastError) :=
    fun _ _ => (hcalls.uses_perform rfl).bind fun _ => trivial
  unfold deliverWebhook
  refine Task.Uses.bind (hcalls.toWebhookCalls.uses_perform rfl rfl) fun delivery => ?_
  split
  · trivial
  split
  · trivial
  split
  · trivial
  unfold deliverRead
  refine Task.Uses.bind (hcalls.toWebhookCalls.uses_perform rfl rfl) fun endpoint => ?_
  split
  · trivial
  refine uses_check fun gateway => ?_
  split
  · trivial
  split
  · exact (hfail _ _).bind fun _ => trivial
  split
  · exact (hfail _ _).bind fun _ => (hcalls.uses_audit _).bind fun _ => trivial
  split
  · exact (hfail _ _).bind fun _ => trivial
  unfold deliverTo
  refine Task.Uses.bind (hcalls.uses (gateway.uses_attest _ _)).attempt fun attested => ?_
  split
  · exact (hfail _ _).bind fun _ => (hcalls.uses_audit _).bind fun _ => trivial
  · refine Task.Uses.bind (hcalls.uses_perform rfl) fun claimed => ?_
    split
    · trivial
    · exact service.uses_attemptClaimed hcalls node _ _ _ _ _ _ _

theorem uses_managedRound (tenantId : String) :
    Task.Uses (S := services τ) calls (service.managedRound node tenantId) := by
  unfold managedRound
  refine Task.Uses.bind (hcalls.toWebhookCalls.uses_perform rfl rfl) fun deliveries => ?_
  refine Task.Uses.bind (hcalls.uses uses_now) fun t => ?_
  refine Task.Uses.forEach deliveries fun delivery _ => ?_
  split
  · exact (service.uses_deliverWebhook hcalls node _ _).bind fun _ => trivial
  · trivial

theorem uses_replayWebhookDelivery (tenantId deliveryId : String) (caller : PrincipalInput) :
    Task.Uses (S := services τ) calls
      (service.replayWebhookDelivery tenantId deliveryId caller) := by
  unfold replayWebhookDelivery
  refine Task.Uses.bind (hcalls.uses (uses_requireVerifiedPrincipal _)) fun principal => ?_
  split
  · trivial
  refine Task.Uses.bind ((hcalls.toWebhookCalls.uses_perform rfl rfl).bind fun _ => trivial)
    fun delivery => ?_
  split
  · trivial
  refine Task.Uses.bind (hcalls.toWebhookCalls.uses_perform rfl rfl) fun endpoint => ?_
  split
  · trivial
  split
  · trivial
  refine uses_check fun gateway => ?_
  split
  · trivial
  refine hcalls.uses_execute gateway _ _ _ _ fun context _ => ?_
  refine Task.Uses.bind (hcalls.uses_perform rfl) fun updated => ?_
  split
  · trivial
  · exact (hcalls.uses_audit _).bind fun _ => trivial

end WebhookService

/-- **Only `receiveWebhook` handles inbound events.** -/
theorem uses_outbound (node : NodeRuntime) (call : WebhookCall τ)
    (hentry : ∀ request, call.entry ≠ .receiveWebhook request) :
    Task.Uses (S := services τ) calls (webhookBody node call) := by
  obtain ⟨service, entry⟩ := call
  have hquiet := hcalls.toWebhookCalls
  cases entry with
  | createWebhookEndpoint input caller =>
    exact (service.uses_createWebhookEndpoint hquiet ..).bind fun _ => trivial
  | disableWebhookEndpoint input caller =>
    exact (service.uses_disableWebhookEndpoint hquiet ..).bind fun _ => trivial
  | emitWebhookEvent input caller =>
    exact (service.uses_emitWebhookEvent hquiet (fun _ => hcalls.deliveries _ rfl) ..).bind fun _ => trivial
  | deliverWebhook tenantId deliveryId =>
    exact (service.uses_deliverWebhook hcalls ..).bind fun _ => trivial
  | managedRound tenantId => exact service.uses_managedRound hcalls ..
  | replayWebhookDelivery tenantId deliveryId caller =>
    exact (service.uses_replayWebhookDelivery hcalls ..).bind fun _ => trivial
  | registerIntegration input caller =>
    exact (service.uses_registerIntegration hquiet ..).bind fun _ => trivial
  | receiveWebhook request => exact absurd rfl (hentry request)
  | authorize capability caller resource requestId => exact uses_webhookAuthorize hquiet ..
  | authenticate claims verifiedBy =>
    exact (hcalls.uses (uses_mintVerifiedPrincipal _ _)).bind fun _ => trivial
  | transaction cs =>
    exact uses_transaction hcalls.authority (fun _ => hcalls.quiet _ rfl rfl rfl) _ cs
      fun _ _ => hcalls.deliveries _ rfl

end outbound

section inbound

/-- Everything but deliveries. -/
structure InboundCalls (calls : Set (AppOp τ)) : Prop extends WebhookCalls calls where
  inbound : ∀ op : AppOp τ, op.handlesInbound = true → op ∈ calls

variable (hcalls : InboundCalls calls)

include hcalls

/-- `receiveWebhook` handles no deliveries. -/
theorem WebhookService.uses_receiveWebhook (node : NodeRuntime) (service : WebhookService)
    (request : InboundWebhookRequest) :
    Task.Uses (S := services τ) calls (service.receiveWebhook node request) := by
  have hinbound : ∀ {op : AppOp τ}, op.handlesInbound = true → Task.Uses (S := services τ) calls
      (Task.perform (S := services τ) op) := fun h => Task.uses_perform (hcalls.inbound _ h)
  unfold receiveWebhook
  refine uses_check fun _ => ?_
  split
  · trivial
  refine Task.Uses.bind ?_ fun integration => ?_
  · unfold findIntegration
    split
    · exact hcalls.uses_perform rfl rfl
    · trivial
  split
  · trivial
  next integration _ =>
  refine uses_check fun message => ?_
  unfold receiveMessage
  split
  · exact (hcalls.uses_audit _).bind fun _ => trivial
  next sentAt _ =>
  refine Task.Uses.bind (hcalls.uses uses_now) fun t => ?_
  split
  · exact (hcalls.uses_audit _).bind fun _ => trivial
  refine Task.Uses.bind (hcalls.uses (uses_mintVerifiedPrincipal _ _)) fun principal => ?_
  refine Task.Uses.tryCatch ?_ fun error => (hcalls.uses_audit _).ignore.bind fun _ => trivial
  refine uses_check fun gateway => ?_
  refine Task.Uses.bind ?_ fun result => (hcalls.uses_audit _).bind fun _ => trivial
  refine hcalls.uses_execute gateway _ _ _ _ fun context tools => ?_
  unfold receiveEffect
  refine Task.Uses.bind (hcalls.uses_withCredential gateway tools _ _ fun value =>
    uses_check fun secret => trivial) fun valid => ?_
  split
  · trivial
  refine Task.Uses.bind (hcalls.uses uses_now) fun acceptedAt => ?_
  refine Task.Uses.bind (hinbound rfl) fun accepted => ?_
  split
  · unfold handleInbound
    split
    · trivial
    split
    · refine Task.Uses.bind (hinbound rfl) fun _ => ?_
      exact (hinbound rfl).bind fun handled => trivial
    · trivial
  · trivial

end inbound

end uses

end AppPort
