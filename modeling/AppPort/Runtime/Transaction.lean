import AppPort.Authority.Gateway
import AppPort.Notifications.Sensitive

/-!
# Transactions

`TransactionContextImpl.queueJob`, `queueNotification` and `queueWebhookDeliveries`,
and the transaction around a callback of the host. A call queues operations in a
builder, which commits all of them or none. A queued effect needs a context that
`authorize()` issued, and uses it up; its evidence row is queued as soon as the
context is accepted, so it stays queued when a later check throws and the callback
catches.

A callback is the list of calls it makes, each with whether its failure is caught.
Quantifying over all lists covers callbacks that choose as they go. A callback that
does not await `queueWebhookDeliveries` still has it awaited before the commit; it
differs in the order of the queued operations, on which nothing here depends.
-/

namespace AppPort

open Effects

variable {τ : Type} [Timestamp τ]

/-- The input of `queueJob`. -/
structure QueueJobInput (τ : Type) where
  tenantId : String
  type : String
  payload : JsValue := .undefined
  maxAttempts : Option Int := none
  runAt : Option τ := none
  delegationId : Option String := none

/-- The event of `queueWebhookDeliveries`. -/
structure QueueEventInput where
  tenantId : String
  type : String
  payload : JsValue := .undefined

/-- The input of `queueNotification`. -/
structure QueueNotificationInput where
  tenantId : String
  recipient : String
  type : String
  title : String
  body : Option String := none
  data : Option JsValue := none
  source : Option NotificationSource := none
  priority : Option NotificationPriority := none

/-- A call a callback makes on its transaction. -/
inductive TransactionCall (τ : Type) where
  | queueJob (input : QueueJobInput τ) (context : ServiceExecutionContext τ)
  | queueNotification (input : QueueNotificationInput) (context : ServiceExecutionContext τ)
  | queueWebhookDeliveries (endpointIds : List String) (event : QueueEventInput)
      (context : ServiceExecutionContext τ)

/-- What a transaction has queued. -/
abbrev Builder (τ : Type) := List (TransactionOperation τ)

/-- `consumeExecutionContext`. -/
def consumeExecutionContext (context : ServiceExecutionContext τ) (capability tenantId : String) :
    Svc τ (ServiceExecutionContext τ) := do
  let t ← now
  let issued : Bool ← (AuthorityOp.isIssued context).perform
  let context ← check (assertExecutionContext context issued capability (some tenantId) t)
  let used : Bool ← (AuthorityOp.consume context).perform
  if used then
    throw (serviceError .denied "Execution context has already been used"
      { capability := some capability, decisionId := some context.authorization.decisionId })
  else pure context

/-- `authorized`: use the context up and queue its evidence. -/
def authorizedFor (gateway : Option ServiceGateway) (context : ServiceExecutionContext τ)
    (capability tenantId resourceType : String) :
    Svc τ (ServiceExecutionContext τ × TransactionOperation τ) :=
  match gateway with
  | none => throw (serviceError .authorityUnavailable
      "Transactions have no AuthBoundry authority configured")
  | some _ => do
    let context ← consumeExecutionContext context capability tenantId
    if context.resource.type ≠ resourceType then
      throw (serviceError .denied ("Execution context was issued for a " ++ context.resource.type ++
        ", not a " ++ resourceType))
    else
      let id ← randomUUID
      let t ← now
      pure (context, .evidence (ServiceGateway.evidenceFor context { service := "transaction" } id t
        .succeeded))

/-- The job `queueJob` queues. -/
def queuedJob (input : QueueJobInput τ) (context : ServiceExecutionContext τ)
    (delegationId : Option String) (id : String) (now : τ) : Job τ where
  id := id
  tenantId := input.tenantId
  applicationId := some context.application
  type := input.type
  payload := input.payload
  status := if input.runAt.getD now ≤ now then .pending else .scheduled
  runAt := input.runAt.getD now
  attemptCount := 0
  maxAttempts := input.maxAttempts.getD 3
  createdAt := now
  nextAttemptAt := some (input.runAt.getD now)
  principal := some (toDurablePrincipal context.principal delegationId
    (some context.authorization.decisionId))
  version := 1

/-- How a call on a transaction went: what it queued, also when it then threw, how it
settled for the callback, and whether validations it started still fail the
transaction (`_settle`). -/
structure Queued (τ : Type) where
  operations : Builder τ
  result : Except JsError Unit
  pending : Except JsError Unit := .ok ()

/-- `queueJob`. -/
def queueJob (gateway : Option ServiceGateway) (input : QueueJobInput τ)
    (contextInput : ServiceExecutionContext τ) : Svc τ (Queued τ) := do
  let accepted ← (authorizedFor gateway contextInput "jobs.create" input.tenantId "job").attempt
  match accepted with
  | .error e => pure { operations := [], result := .error e }
  | .ok (context, evidence) =>
    if context.resource.attribute "jobType" ≠ some input.type then
      pure { operations := [evidence], result := .error (serviceError .denied
        ("Execution context was not issued for job type " ++ input.type)) }
    else if input.delegationId ≠ none ∧ input.delegationId ≠ ServiceGateway.effectiveDelegation context then
      pure { operations := [evidence], result := .error (serviceError .denied
        "Execution context was not issued for this delegation") }
    else do
      let id ← randomUUID
      let t ← now
      let auditId ← randomUUID
      let job := queuedJob input context (ServiceGateway.effectiveDelegation context) id t
      pure {
        operations := [evidence, .job job, .jobAudit {
          id := auditId, type := "job.enqueued", jobId := some job.id, tenantId := job.tenantId
          principalId := context.principal.principalId, timestamp := t, success := true
          details := [("jobType", job.type)] }]
        result := .ok () }

/-- The content of a notification carries no credential material. -/
def QueueNotificationInput.assertContent (input : QueueNotificationInput) : Except JsError Unit := do
  assertTextNoCredentials "title" (some input.title)
  assertTextNoCredentials "body" input.body
  match input.data with
  | some data => assertNoCredentials "data" data
  | none => .ok ()
  match input.source with
  | some source => assertNoCredentials "source" source.toJs
  | none => .ok ()

/-- The notification `queueNotification` queues. -/
def queuedNotification (input : QueueNotificationInput) (context : ServiceExecutionContext τ)
    (id : String) (now : τ) : Notification τ where
  id := id
  tenantId := input.tenantId
  applicationId := some context.application
  recipient := input.recipient
  type := input.type
  title := input.title
  body := input.body
  data := input.data
  source := input.source
  priority := input.priority.getD .normal
  channels := ["in-app"]
  status := .delivered
  createdAt := now
  createdBy := some context.principal.principalId
  deliveredAt := some now
  version := 1

/-- The delivery queued with it. -/
def queuedInAppDelivery (input : QueueNotificationInput) (id deliveryId : String) (now : τ) :
    NotificationDelivery τ where
  id := deliveryId
  tenantId := input.tenantId
  notificationId := id
  recipient := input.recipient
  channel := "in-app"
  status := .delivered
  idempotencyKey := id ++ ":in-app"
  attemptCount := 1
  maxAttempts := 1
  createdAt := now
  lastAttemptAt := some now
  deliveredAt := some now
  version := 1

/-- `queueNotification`. -/
def queueNotification (gateway : Option ServiceGateway) (input : QueueNotificationInput)
    (contextInput : ServiceExecutionContext τ) : Svc τ (Queued τ) := do
  let accepted ← (authorizedFor gateway contextInput "notifications.send" input.tenantId
    "notification").attempt
  match accepted with
  | .error e => pure { operations := [], result := .error e }
  | .ok (context, evidence) =>
    if context.resource.attribute "recipient" ≠ some input.recipient then
      pure { operations := [evidence], result := .error (serviceError .denied
        "Execution context was not issued for this recipient") }
    else
      match input.assertContent with
      | .error e => pure { operations := [evidence], result := .error e }
      | .ok () => do
        let id ← randomUUID
        let t ← now
        let deliveryId ← randomUUID
        let auditId ← randomUUID
        pure {
          operations := [evidence, .notification (queuedNotification input context id t),
            .notificationDelivery (queuedInAppDelivery input id deliveryId t), .notificationAudit {
              id := auditId, type := "notification.created", notificationId := id
              tenantId := input.tenantId, recipient := input.recipient
              principalId := context.principal.principalId, timestamp := t, success := true }]
          result := .ok () }

/-- Why an endpoint id cannot be targeted by an event. -/
def targets (registered : List (WebhookEndpoint τ)) (event : QueueEventInput) (application : String)
    (endpointId : String) : Bool :=
  match registered.find? (fun candidate => candidate.id == endpointId) with
  | none => false
  | some endpoint => endpoint.tenantId == event.tenantId &&
      endpoint.applicationId == some application && endpoint.disabledAt.isNone &&
      endpoint.events.contains event.type

/-- The delivery `addDeliveries` queues for one endpoint. -/
def queuedDelivery (event : QueueEventInput) (context : ServiceExecutionContext τ)
    (endpointId eventId id : String) (createdAt : τ) : WebhookDelivery τ where
  id := id
  tenantId := event.tenantId
  endpointId := endpointId
  eventId := eventId
  eventType := event.type
  payload := event.payload
  status := .pending
  attemptCount := 0
  nextAttemptAt := some createdAt
  createdAt := createdAt
  principal := some (toDurablePrincipal context.principal none
    (some context.authorization.decisionId))
  version := 1

/-- The deliveries of `addDeliveries`, one for each endpoint id. -/
def queueDeliveries (event : QueueEventInput) (context : ServiceExecutionContext τ)
    (eventId : String) (createdAt : τ) : List String → Svc τ (Builder τ)
  | [] => pure []
  | endpointId :: rest => do
    let id ← randomUUID
    let queued ← queueDeliveries event context eventId createdAt rest
    pure (.delivery (queuedDelivery event context endpointId eventId id createdAt) :: queued)

/-- The validation `queueWebhookDeliveries` starts: every endpoint id is a target, and
then the deliveries are queued. -/
def validateAndQueue (endpointIds : List String) (event : QueueEventInput)
    (context : ServiceExecutionContext τ) : Svc τ (Builder τ) := do
  let registered : List (WebhookEndpoint τ) ← (WebhookOp.listEndpoints event.tenantId).perform
  match endpointIds.find? (fun id => !targets registered event context.application id) with
  | some endpointId =>
    throw (serviceError .denied ("Endpoint " ++ endpointId ++
      " is not a registered, enabled subscriber to " ++ event.type ++ " for this tenant"))
  | none => do
    let eventId ← randomUUID
    let createdAt ← now
    let queued ← queueDeliveries event context eventId createdAt endpointIds
    let auditId ← randomUUID
    pure (queued ++ [.webhookAudit {
      id := auditId, type := "webhook.event.emitted", tenantId := event.tenantId
      principalId := context.principal.principalId, timestamp := createdAt, success := true
      eventType := some event.type }])

/-- `queueWebhookDeliveries`, awaited. -/
def queueWebhookDeliveries (gateway : Option ServiceGateway) (endpointIds : List String)
    (event : QueueEventInput) (contextInput : ServiceExecutionContext τ) : Svc τ (Queued τ) := do
  let accepted ← (authorizedFor gateway contextInput "webhooks.emit" event.tenantId
    "webhook_event").attempt
  match accepted with
  | .error e => pure { operations := [], result := .error e }
  | .ok (context, evidence) =>
    if context.resource.attribute "eventType" ≠ some event.type then
      pure { operations := [evidence], result := .error (serviceError .denied
        ("Execution context was not issued for event " ++ event.type)) }
    else do
      let queued ← (validateAndQueue endpointIds event context).attempt
      match queued with
      | .error e => pure { operations := [evidence], result := .error e, pending := .error e }
      | .ok operations => pure { operations := evidence :: operations, result := .ok () }

/-- One call of a callback. -/
def TransactionCall.perform (gateway : Option ServiceGateway) : TransactionCall τ → Svc τ (Queued τ)
  | .queueJob input context => AppPort.queueJob gateway input context
  | .queueNotification input context => AppPort.queueNotification gateway input context
  | .queueWebhookDeliveries endpointIds event context =>
    AppPort.queueWebhookDeliveries gateway endpointIds event context

/-- The callback: its calls in order, and how each went. A failure it does not catch
aborts it. -/
def runCallback (gateway : Option ServiceGateway) :
    List (TransactionCall τ × Bool) → Svc τ (List (Queued τ))
  | [] => pure []
  | (call, catches) :: rest => do
    let queued ← call.perform gateway
    match queued.result, catches with
    | .error e, false => throw e
    | _, _ => do
      let later ← runCallback gateway rest
      pure (queued :: later)

/-- `_settle`: a failed validation fails the transaction, caught or not. -/
def settlePending : List (Queued τ) → Except JsError Unit
  | [] => .ok ()
  | queued :: rest =>
    match queued.pending with
    | .error e => .error e
    | .ok _ => settlePending rest

/-- Execute the callback to collect operations, then wait for queued validations. -/
def collectOperations (gateway : Option ServiceGateway) (calls : List (TransactionCall τ × Bool)) :
    Svc τ (List (Queued τ)) := do
  let went ← runCallback gateway calls
  check (settlePending went)
  pure went

/-- `services.transaction(callback)`. -/
def transaction (gateway : Option ServiceGateway) (calls : List (TransactionCall τ × Bool)) :
    Svc τ Unit := do
  let went ← collectOperations gateway calls
  commit (went.flatMap fun queued => queued.operations)

/-! ## How a call can go -/

/-- A context that `authorized` accepts for a capability, at some time and if it is
issued and unused. -/
def Grants (context : ServiceExecutionContext τ) (capability tenantId resourceType : String) : Prop :=
  (∃ now, assertExecutionContext context true capability (some tenantId) now = .ok context) ∧
    context.resource.type = resourceType

/-- The context a call hands in. -/
def TransactionCall.context : TransactionCall τ → ServiceExecutionContext τ
  | .queueJob _ context | .queueNotification _ context | .queueWebhookDeliveries _ _ context => context

/-- The context of the call can be accepted. -/
def TransactionCall.Acceptable : TransactionCall τ → Prop
  | .queueJob input context => Grants context "jobs.create" input.tenantId "job"
  | .queueNotification input context =>
    Grants context "notifications.send" input.tenantId "notification"
  | .queueWebhookDeliveries _ event context =>
    Grants context "webhooks.emit" event.tenantId "webhook_event"

/-- What the call asks for is what its context was issued for, and may be queued. -/
def TransactionCall.Matched : TransactionCall τ → Prop
  | .queueJob input context => context.resource.attribute "jobType" = some input.type ∧
      (input.delegationId = none ∨
        input.delegationId = ServiceGateway.effectiveDelegation context)
  | .queueNotification input context =>
    context.resource.attribute "recipient" = some input.recipient ∧ input.assertContent = .ok ()
  | .queueWebhookDeliveries _ event context =>
    context.resource.attribute "eventType" = some event.type

/-- A succeeded evidence row of a decision. -/
def EvidenceOf (context : ServiceExecutionContext τ) (op : TransactionOperation τ) : Prop :=
  ∃ row, op = .evidence row ∧ row.outcome = .succeeded ∧
    row.decisionId = some context.authorization.decisionId

/-- The effect of a call: a job, a notification with its delivery, or the deliveries of
one event, each with its audit row. -/
def EffectOf : TransactionCall τ → Builder τ → Prop
  | .queueJob input context, effect => ∃ delegationId id t event,
      effect = [.job (queuedJob input context delegationId id t), .jobAudit event] ∧ event.jobId = id
  | .queueNotification input context, effect => ∃ id deliveryId t event,
      effect = [.notification (queuedNotification input context id t),
        .notificationDelivery (queuedInAppDelivery input id deliveryId t), .notificationAudit event] ∧
      event.notificationId = id
  | .queueWebhookDeliveries endpointIds event context, effect =>
    ∃ (eventId : String) (createdAt : τ) (targets : List (String × String)) (audit : WebhookAuditEvent τ),
      targets.map Prod.fst = endpointIds ∧ audit.eventType = some event.type ∧
      effect = targets.map (fun target =>
        .delivery (queuedDelivery event context target.1 eventId target.2 createdAt)) ++
          [.webhookAudit audit]

/-- How a call on a transaction can go. -/
inductive Went (call : TransactionCall τ) : Queued τ → Prop
  /-- Its context was not accepted. -/
  | refused (e : JsError) : Went call { operations := [], result := .error e }
  /-- Its context was accepted, and the call did not match it. -/
  | mismatched {evidence : TransactionOperation τ} (e : JsError) (haccepted : call.Acceptable)
      (hmatched : ¬ call.Matched) (hevidence : EvidenceOf call.context evidence) :
      Went call { operations := [evidence], result := .error e }
  /-- The validation it started failed. -/
  | unvalidated {evidence : TransactionOperation τ} (e : JsError)
      (hevidence : EvidenceOf call.context evidence) :
      Went call { operations := [evidence], result := .error e, pending := .error e }
  /-- Its effect is queued. -/
  | queued {evidence : TransactionOperation τ} {effect : Builder τ} (haccepted : call.Acceptable)
      (hmatched : call.Matched) (hevidence : EvidenceOf call.context evidence)
      (heffect : EffectOf call effect) :
      Went call { operations := evidence :: effect, result := .ok () }

/-- A context is used up by a call it is good for. -/
theorem yields_consumeExecutionContext (context : ServiceExecutionContext τ)
    (capability tenantId : String) : Task.Yields (S := services τ) (fun context' =>
      context' = context ∧
        ∃ now, assertExecutionContext context true capability (some tenantId) now = .ok context)
      (consumeExecutionContext context capability tenantId) := by
  unfold consumeExecutionContext
  refine Task.Yields.of_bind fun t => Task.Yields.of_bind fun issued => ?_
  -- the asserted context is the one handed in
  refine Task.Yields.bind (Q := fun context' => context' = context ∧
    assertExecutionContext context true capability (some tenantId) t = .ok context)
    (Task.yields_ofExcept fun context' h => ?_) fun context' hcontext =>
      Task.Yields.of_bind fun used => ?_
  · obtain ⟨rfl, rfl, -⟩ := assertExecutionContext_ok h
    exact ⟨rfl, h⟩
  · split
    · trivial
    · exact ⟨hcontext.1, t, hcontext.2⟩

/-- What `authorized` accepts, and the row it queues. -/
theorem yields_authorizedFor_row (gateway : Option ServiceGateway)
    (context : ServiceExecutionContext τ) (capability tenantId resourceType : String) :
    Task.Yields (S := services τ)
      (fun r => r.1 = context ∧ Grants context capability tenantId resourceType ∧
        ∃ id t, r.2 = .evidence
          (ServiceGateway.evidenceFor context { service := "transaction" } id t .succeeded))
      (authorizedFor gateway context capability tenantId resourceType) := by
  unfold authorizedFor
  split
  · trivial
  refine Task.Yields.bind (yields_consumeExecutionContext context capability tenantId) ?_
  rintro context' ⟨rfl, hnow⟩
  split
  · trivial
  next htype =>
  refine Task.Yields.of_bind fun id => Task.Yields.of_bind fun t => ?_
  exact ⟨rfl, ⟨hnow, not_not.mp htype⟩, id, t, rfl⟩

theorem yields_authorizedFor (gateway : Option ServiceGateway) (context : ServiceExecutionContext τ)
    (capability tenantId resourceType : String) :
    Task.Yields (S := services τ)
      (fun r => r.1 = context ∧ Grants context capability tenantId resourceType ∧
        EvidenceOf context r.2)
      (authorizedFor gateway context capability tenantId resourceType) := by
  refine Task.Yields.mono ?_ (yields_authorizedFor_row gateway context _ _ _)
  rintro ⟨context', op⟩ ⟨hcontext, hgrants, id, t, rfl⟩
  exact ⟨hcontext, hgrants, _, rfl, rfl, rfl⟩

theorem yields_queueJob (gateway : Option ServiceGateway) (input : QueueJobInput τ)
    (context : ServiceExecutionContext τ) : Task.Yields (S := services τ)
      (Went (.queueJob input context)) (queueJob gateway input context) := by
  unfold queueJob
  refine Task.Yields.bind (yields_authorizedFor gateway context _ _ _).attempt
    fun accepted haccepted => ?_
  cases accepted with
  | error e => exact .refused e
  | ok accepted =>
    obtain ⟨context', evidence⟩ := accepted
    obtain ⟨hcontext, hgrants, hevidence⟩ := haccepted _ rfl
    obtain rfl : context' = context := hcontext
    simp only
    split
    · next htype => exact .mismatched _ hgrants (fun hm => htype hm.1) hevidence
    next htype =>
    split
    · next hdelegation =>
      refine .mismatched _ hgrants (fun hm => ?_) hevidence
      rcases hm.2 with hnone | hsame
      · exact hdelegation.1 hnone
      · exact hdelegation.2 hsame
    · next hdelegation =>
      refine Task.Yields.of_bind fun id => Task.Yields.of_bind fun t =>
        Task.Yields.of_bind fun auditId => ?_
      have hmatched : (TransactionCall.queueJob input context').Matched :=
        ⟨not_not.mp htype, by
          rw [not_and_or, not_not, not_not] at hdelegation
          exact hdelegation⟩
      exact .queued hgrants hmatched hevidence ⟨_, id, t, _, rfl, rfl⟩

theorem yields_queueNotification (gateway : Option ServiceGateway) (input : QueueNotificationInput)
    (context : ServiceExecutionContext τ) : Task.Yields (S := services τ)
      (Went (.queueNotification input context)) (queueNotification gateway input context) := by
  unfold queueNotification
  refine Task.Yields.bind (yields_authorizedFor gateway context _ _ _).attempt
    fun accepted haccepted => ?_
  cases accepted with
  | error e => exact .refused e
  | ok accepted =>
    obtain ⟨context', evidence⟩ := accepted
    obtain ⟨hcontext, hgrants, hevidence⟩ := haccepted _ rfl
    obtain rfl : context' = context := hcontext
    simp only
    split
    · next hrecipient => exact .mismatched _ hgrants (fun hm => hrecipient hm.1) hevidence
    next hrecipient =>
    cases hcontent : input.assertContent with
    | error e =>
      refine .mismatched e hgrants (fun hm => ?_) hevidence
      have hok := hm.2
      rw [hcontent] at hok
      cases hok
    | ok _ =>
      refine Task.Yields.of_bind fun id => Task.Yields.of_bind fun t =>
        Task.Yields.of_bind fun deliveryId => Task.Yields.of_bind fun auditId => ?_
      exact .queued hgrants ⟨not_not.mp hrecipient, hcontent⟩ hevidence
        ⟨id, deliveryId, t, _, rfl, rfl⟩

omit [Timestamp τ] in
theorem yields_queueDeliveries (event : QueueEventInput) (context : ServiceExecutionContext τ)
    (eventId : String) (createdAt : τ) (endpointIds : List String) :
    Task.Yields (S := services τ) (fun ops : Builder τ => ∃ targets : List (String × String),
      targets.map Prod.fst = endpointIds ∧ ops = targets.map fun target =>
        .delivery (queuedDelivery event context target.1 eventId target.2 createdAt))
      (queueDeliveries event context eventId createdAt endpointIds) := by
  induction endpointIds with
  | nil => exact ⟨[], rfl, rfl⟩
  | cons endpointId rest ih =>
    refine Task.Yields.of_bind fun id => Task.Yields.bind ih fun queued hqueued => ?_
    obtain ⟨targets, rfl, rfl⟩ := hqueued
    exact ⟨(endpointId, id) :: targets, rfl, rfl⟩

theorem yields_validateAndQueue (endpointIds : List String) (event : QueueEventInput)
    (context : ServiceExecutionContext τ) :
    Task.Yields (S := services τ) (EffectOf (.queueWebhookDeliveries endpointIds event context))
      (validateAndQueue endpointIds event context) := by
  unfold validateAndQueue
  refine Task.Yields.of_bind fun registered => ?_
  split
  · trivial
  refine Task.Yields.of_bind fun eventId => Task.Yields.of_bind fun createdAt => ?_
  refine Task.Yields.bind (yields_queueDeliveries event context eventId createdAt _)
    fun ops hops => Task.Yields.of_bind fun auditId => ?_
  obtain ⟨targets, htargets, rfl⟩ := hops
  exact ⟨eventId, createdAt, targets, _, htargets, rfl, rfl⟩

theorem yields_queueWebhookDeliveries (gateway : Option ServiceGateway) (endpointIds : List String)
    (event : QueueEventInput) (context : ServiceExecutionContext τ) : Task.Yields (S := services τ)
      (Went (.queueWebhookDeliveries endpointIds event context))
      (queueWebhookDeliveries gateway endpointIds event context) := by
  unfold queueWebhookDeliveries
  refine Task.Yields.bind (yields_authorizedFor gateway context _ _ _).attempt
    fun accepted haccepted => ?_
  cases accepted with
  | error e => exact .refused e
  | ok accepted =>
    obtain ⟨context', evidence⟩ := accepted
    obtain ⟨hcontext, hgrants, hevidence⟩ := haccepted _ rfl
    obtain rfl : context' = context := hcontext
    simp only
    split
    · next htype => exact .mismatched _ hgrants htype hevidence
    next htype =>
    refine Task.Yields.bind (yields_validateAndQueue endpointIds event context').attempt
      fun queued hqueued => ?_
    cases queued with
    | error e => exact .unvalidated e hevidence
    | ok operations => exact .queued hgrants (not_not.mp htype) hevidence (hqueued _ rfl)

/-- **How a call can go.** -/
theorem yields_perform (gateway : Option ServiceGateway) (call : TransactionCall τ) :
    Task.Yields (S := services τ) (Went call) (call.perform gateway) := by
  cases call with
  | queueJob input context => exact yields_queueJob gateway input context
  | queueNotification input context => exact yields_queueNotification gateway input context
  | queueWebhookDeliveries ids event context =>
    exact yields_queueWebhookDeliveries gateway ids event context

/-- How a callback that is not aborted can go: each of its calls as that call can, and
the ones that failed were caught. -/
theorem yields_runCallback (gateway : Option ServiceGateway) (calls : List (TransactionCall τ × Bool)) :
    Task.Yields (S := services τ) (List.Forall₂ (fun entry queued => Went entry.1 queued ∧
      ((∃ e, queued.result = .error e) → entry.2 = true)) calls) (runCallback gateway calls) := by
  induction calls with
  | nil => exact .nil
  | cons entry rest ih =>
    obtain ⟨call, catches⟩ := entry
    refine Task.Yields.bind (yields_perform gateway call) fun queued hqueued => ?_
    split
    · trivial
    next hnot =>
    refine Task.Yields.bind ih fun later hlater => .cons ⟨hqueued, fun ⟨e, he⟩ => ?_⟩ hlater
    exact Bool.eq_true_of_not_eq_false (hnot e he)

/-- The callback of a transaction that commits had no validation fail. -/
theorem yields_collectOperations (gateway : Option ServiceGateway)
    (calls : List (TransactionCall τ × Bool)) :
    Task.Yields (S := services τ) (fun went => settlePending went = .ok () ∧
      List.Forall₂ (fun entry queued => Went entry.1 queued ∧
        ((∃ e, queued.result = .error e) → entry.2 = true)) calls went)
      (collectOperations gateway calls) := by
  unfold collectOperations
  refine Task.Yields.bind (yields_runCallback gateway calls) fun went hwent => ?_
  exact Task.Yields.bind (Task.yields_ofExcept fun _ h => h) fun _ hsettled => ⟨hsettled, hwent⟩

omit [Timestamp τ] in
theorem settlePending_ok {went : List (Queued τ)} (h : settlePending went = .ok ()) :
    ∀ queued ∈ went, queued.pending = .ok () := by
  induction went with
  | nil => simp
  | cons queued rest ih =>
    cases hpending : queued.pending with
    | error e =>
      simp only [settlePending, hpending] at h
      cases h
    | ok _ =>
      simp only [settlePending, hpending] at h
      simp only [List.mem_cons, forall_eq_or_imp]
      exact ⟨hpending, ih h⟩

/-! ## What a transaction commits -/

/-- Where a queued record comes from: a call of the callback asked for it. -/
def QueuedBy (calls : List (TransactionCall τ)) : TransactionOperation τ → Prop
  | .job job => ∃ input context, .queueJob input context ∈ calls ∧
      context.resource.attribute "jobType" = some input.type ∧
      ∃ delegationId id t, job = queuedJob input context delegationId id t
  | .delivery delivery => ∃ endpointIds event context,
      .queueWebhookDeliveries endpointIds event context ∈ calls ∧
      context.resource.attribute "eventType" = some event.type ∧
      ∃ endpointId eventId id t,
        delivery = queuedDelivery event context endpointId eventId id t
  | _ => True

theorem EvidenceOf.queuedBy {context : ServiceExecutionContext τ} {op : TransactionOperation τ}
    (h : EvidenceOf context op) (calls : List (TransactionCall τ)) : QueuedBy calls op := by
  obtain ⟨row, rfl, -⟩ := h
  trivial

theorem EffectOf.queuedBy {call : TransactionCall τ} {effect : Builder τ} (h : EffectOf call effect)
    (hmatched : call.Matched) {calls : List (TransactionCall τ)} (hmem : call ∈ calls) :
    ∀ op ∈ effect, QueuedBy calls op := by
  cases call with
  | queueJob input context =>
    obtain ⟨delegationId, id, t, event, rfl, -⟩ := h
    simp only [List.mem_cons, List.not_mem_nil, or_false, forall_eq_or_imp, forall_eq]
    exact ⟨⟨input, context, hmem, hmatched.1, delegationId, id, t, rfl⟩, trivial⟩
  | queueNotification input context =>
    obtain ⟨id, deliveryId, t, event, rfl, -⟩ := h
    simp only [List.mem_cons, List.not_mem_nil, or_false, forall_eq_or_imp, forall_eq]
    exact ⟨trivial, trivial, trivial⟩
  | queueWebhookDeliveries endpointIds event context =>
    obtain ⟨eventId, createdAt, targets, audit, -, -, rfl⟩ := h
    intro op hop
    rcases List.mem_append.mp hop with hop | hop
    · obtain ⟨target, -, rfl⟩ := List.mem_map.mp hop
      exact ⟨endpointIds, event, context, hmem, hmatched, target.1, eventId, target.2, createdAt, rfl⟩
    · obtain rfl := List.mem_singleton.mp hop
      trivial

/-- A call queues what it asked for, and its evidence. -/
theorem Went.queuedBy {call : TransactionCall τ} {queued : Queued τ} (h : Went call queued)
    {calls : List (TransactionCall τ)} (hmem : call ∈ calls) :
    ∀ op ∈ queued.operations, QueuedBy calls op := by
  cases h with
  | refused e => simp
  | mismatched e _ _ hevidence | unvalidated e hevidence =>
    intro op hop
    obtain rfl := List.mem_singleton.mp hop
    exact hevidence.queuedBy calls
  | queued _ hmatched hevidence heffect =>
    intro op hop
    rcases List.mem_cons.mp hop with rfl | hop
    · exact hevidence.queuedBy calls
    · exact heffect.queuedBy hmatched hmem op hop

/-- Everything a callback queues, one of its calls asked for. -/
theorem queuedBy_of_went {calls : List (TransactionCall τ × Bool)} {went : List (Queued τ)}
    (h : List.Forall₂ (fun entry queued => Went entry.1 queued ∧
      ((∃ e, queued.result = .error e) → entry.2 = true)) calls went)
    {asked : List (TransactionCall τ)} (hasked : calls.map Prod.fst ⊆ asked) :
    ∀ op ∈ went.flatMap (fun queued => queued.operations), QueuedBy asked op := by
  induction h with
  | nil => simp
  | cons hhead _ ih =>
    obtain ⟨hcall, hrest⟩ := List.cons_subset.mp hasked
    intro op hop
    rcases List.mem_append.mp hop with hop | hop
    · exact hhead.1.queuedBy hcall op hop
    · exact ih hrest op hop

/-! ## The calls of a transaction -/

section uses

variable {calls : Set (AppOp τ)}

theorem uses_authorizedFor (hauthority : authorityCalls ⊆ calls) (gateway : Option ServiceGateway)
    (context : ServiceExecutionContext τ) (capability tenantId resourceType : String) :
    Task.Uses (S := services τ) calls
      (authorizedFor gateway context capability tenantId resourceType) := by
  have hauth : ∀ {β : Type} {t : Svc τ β}, Task.Uses (S := services τ) authorityCalls t →
      Task.Uses (S := services τ) calls t := fun ht => ht.mono hauthority
  unfold authorizedFor
  split
  · trivial
  · refine Task.Uses.bind ?_ fun context' => ?_
    · unfold consumeExecutionContext
      refine Task.Uses.bind (hauth uses_now) fun t => ?_
      refine Task.Uses.bind (hauth (AuthorityOp.uses _)) fun issued => ?_
      refine Task.Uses.bind (Task.uses_settled _ _) fun context' => ?_
      refine Task.Uses.bind (hauth (AuthorityOp.uses _)) fun used => ?_
      split <;> trivial
    · split
      · trivial
      · refine Task.Uses.bind (hauth uses_randomUUID) fun id => ?_
        exact Task.Uses.bind (hauth uses_now) fun t => trivial

omit [Timestamp τ] in
theorem uses_queueDeliveries (hauthority : authorityCalls ⊆ calls) (event : QueueEventInput)
    (context : ServiceExecutionContext τ) (eventId : String) (createdAt : τ) :
    (endpointIds : List String) → Task.Uses (S := services τ) calls
      (queueDeliveries event context eventId createdAt endpointIds)
  | [] => trivial
  | _ :: rest => Task.Uses.bind (uses_randomUUID.mono hauthority) fun _ =>
    (uses_queueDeliveries hauthority event context eventId createdAt rest).bind fun _ => trivial

/-- A call authorizes itself, and only then asks for anything else. -/
theorem perform_eq (hauthority : authorityCalls ⊆ calls)
    (hlist : ∀ tenantId, .webhooks (.listEndpoints tenantId) ∈ calls)
    (gateway : Option ServiceGateway) (call : TransactionCall τ) :
    ∃ capability tenantId resourceType f,
      call.perform gateway =
        (authorizedFor gateway call.context capability tenantId resourceType).attempt.bind f ∧
      (∀ e, f (.error e) = pure { operations := [], result := .error e }) ∧
      ∀ accepted, Task.Uses (S := services τ) calls (f (.ok accepted)) := by
  have hauth : ∀ {β : Type} {t : Svc τ β}, Task.Uses (S := services τ) authorityCalls t →
      Task.Uses (S := services τ) calls t := fun ht => ht.mono hauthority
  cases call with
  | queueJob input context =>
    refine ⟨_, _, _, _, rfl, fun e => rfl, fun accepted => ?_⟩
    simp only
    split
    · trivial
    · split
      · trivial
      · refine Task.Uses.bind (hauth uses_randomUUID) fun id => ?_
        refine Task.Uses.bind (hauth uses_now) fun t => ?_
        exact Task.Uses.bind (hauth uses_randomUUID) fun auditId => trivial
  | queueNotification input context =>
    refine ⟨_, _, _, _, rfl, fun e => rfl, fun accepted => ?_⟩
    simp only
    split
    · trivial
    · split
      · trivial
      · refine Task.Uses.bind (hauth uses_randomUUID) fun id => ?_
        refine Task.Uses.bind (hauth uses_now) fun t => ?_
        refine Task.Uses.bind (hauth uses_randomUUID) fun deliveryId => ?_
        exact Task.Uses.bind (hauth uses_randomUUID) fun auditId => trivial
  | queueWebhookDeliveries endpointIds event context =>
    refine ⟨_, _, _, _, rfl, fun e => rfl, fun accepted => ?_⟩
    simp only
    split
    · trivial
    · refine Task.Uses.bind (Task.Uses.attempt ?_) fun queued => ?_
      · unfold validateAndQueue
        refine Task.Uses.bind (Task.uses_perform (hlist _)) fun registered => ?_
        split
        · trivial
        · refine Task.Uses.bind (hauth uses_randomUUID) fun eventId => ?_
          refine Task.Uses.bind (hauth uses_now) fun createdAt => ?_
          refine Task.Uses.bind (uses_queueDeliveries hauthority _ _ _ _ _) fun ops => ?_
          exact Task.Uses.bind (hauth uses_randomUUID) fun auditId => trivial
      · split <;> trivial

theorem uses_perform (hauthority : authorityCalls ⊆ calls)
    (hlist : ∀ tenantId, .webhooks (.listEndpoints tenantId) ∈ calls)
    (gateway : Option ServiceGateway) (call : TransactionCall τ) :
    Task.Uses (S := services τ) calls (call.perform gateway) := by
  obtain ⟨capability, tenantId, resourceType, f, heq, hrefused, haccepted⟩ :=
    perform_eq hauthority hlist gateway call
  rw [heq]
  refine Task.Uses.bind (uses_authorizedFor hauthority gateway _ _ _ _).attempt fun r => ?_
  cases r with
  | error e =>
    rw [hrefused e]
    trivial
  | ok accepted => exact haccepted accepted

theorem uses_runCallback (hauthority : authorityCalls ⊆ calls)
    (hlist : ∀ tenantId, .webhooks (.listEndpoints tenantId) ∈ calls)
    (gateway : Option ServiceGateway) : (cs : List (TransactionCall τ × Bool)) →
    Task.Uses (S := services τ) calls (runCallback gateway cs)
  | [] => trivial
  | (call, catches) :: rest => by
    refine Task.Uses.bind (uses_perform hauthority hlist gateway call) fun queued => ?_
    split
    · trivial
    · exact Task.Uses.bind (uses_runCallback hauthority hlist gateway rest) fun _ => trivial

/-- **The calls of a transaction.** Besides authority calls and the list of endpoints,
one commit of what its callback asked for. -/
theorem uses_transaction (hauthority : authorityCalls ⊆ calls)
    (hlist : ∀ tenantId, .webhooks (.listEndpoints tenantId) ∈ calls)
    (gateway : Option ServiceGateway) (cs : List (TransactionCall τ × Bool))
    (hcommit : ∀ ops, (∀ op ∈ ops, QueuedBy (cs.map Prod.fst) op) → .commit ops ∈ calls) :
    Task.Uses (S := services τ) calls (transaction gateway cs) := by
  unfold transaction
  refine Task.Uses.bind_yields ?_ (yields_collectOperations gateway cs) fun went hwent => ?_
  · unfold collectOperations
    refine Task.Uses.bind (uses_runCallback hauthority hlist gateway cs) fun went => ?_
    exact Task.Uses.bind (Task.uses_settled _ _) fun _ => trivial
  · unfold commit
    split
    · trivial
    · exact Task.uses_perform (hcommit _ (queuedBy_of_went hwent.2 (List.Subset.refl _)))

end uses

end AppPort
