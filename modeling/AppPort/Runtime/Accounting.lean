import AppPort.Runtime.Transaction

/-!
# Accounting — evidence and its effect in a transaction

The evidence row of a call on a transaction is queued before most of the checks the
call makes. Whether every transaction commits evidence only together with its effect
is decided by the calls whose failure the callback catches.
-/

namespace AppPort

open Effects Effects.Platform

variable {τ : Type} [Timestamp τ]

section pairing

variable {α β : Type} {R : α → β → Prop} {Q : β → Prop} {l : List α} {u : List β}

/-- What holds of every partner may be added to the pairing. -/
theorem forall₂_and_right (h : List.Forall₂ R l u) (hQ : ∀ b ∈ u, Q b) :
    List.Forall₂ (fun a b => R a b ∧ Q b) l u := by
  induction h with
  | nil => exact .nil
  | cons hhead _ ih =>
    obtain ⟨hb, hrest⟩ := List.forall_mem_cons.mp hQ
    exact .cons ⟨hhead, hb⟩ (ih hrest)

end pairing

/-- What a call leaves in a transaction: its evidence row together with its effect, or
nothing when it threw. -/
def Accounted (call : TransactionCall τ) (queued : Queued τ) : Prop :=
  match queued.result with
  | .error _ => queued.operations = []
  | .ok _ => ∃ evidence effect, queued.operations = evidence :: effect ∧
      EvidenceOf call.context evidence ∧ EffectOf call effect

/-- However its calls are answered, what a transaction is about to commit is accounted
for, call by call. -/
def CommitsAccounted (gateway : ServiceGateway) (calls : List (TransactionCall τ × Bool)) : Prop :=
  (collectOperations (some gateway) calls).Yields
    (List.Forall₂ (fun entry queued => Accounted entry.1 queued) calls)

/-- The call can have its context accepted, and is then refused for what it asks for. -/
def TransactionCall.RefusedLate (call : TransactionCall τ) : Prop :=
  call.Acceptable ∧ ¬ call.Matched

/-- The call never goes through. -/
def TransactionCall.Hopeless (call : TransactionCall τ) : Prop :=
  ¬ (call.Acceptable ∧ call.Matched)

/-- A call that went through, or was refused before its context was used up, is accounted
for. -/
theorem Went.accounted {call : TransactionCall τ} {queued : Queued τ} (h : Went call queued)
    (hpending : queued.pending = .ok ())
    (hlate : (∃ e, queued.result = .error e) → ¬ call.RefusedLate) : Accounted call queued := by
  cases h with
  | refused e => rfl
  | mismatched e haccepted hmatched _ => exact absurd ⟨haccepted, hmatched⟩ (hlate ⟨e, rfl⟩)
  | unvalidated e _ => cases hpending
  | queued _ _ hevidence heffect => exact ⟨_, _, rfl, hevidence, heffect⟩

section answers

variable (gateway : ServiceGateway)

/-- A context that is not issued is not accepted. -/
theorem resolves_authorizedFor_refused (t : τ) (context : ServiceExecutionContext τ)
    (capability tenantId resourceType : String) :
    ∃ e, Task.Resolves (S := services τ)
      (authorizedFor (some gateway) context capability tenantId resourceType) (.error e) := by
  refine ⟨serviceError .unauthenticated "A gateway-issued execution context is required"
    { capability := some capability }, Task.Resolves.bind_error ?_⟩
  refine Task.Resolves.answered t ?_
  exact Task.Resolves.answered false (Task.Resolves.bind_error rfl)

/-- A context that is issued, unused and in time is accepted. -/
theorem resolves_authorizedFor_accepted {context : ServiceExecutionContext τ}
    {capability tenantId resourceType : String}
    (h : Grants context capability tenantId resourceType) :
    ∃ evidence, Task.Resolves (S := services τ)
      (authorizedFor (some gateway) context capability tenantId resourceType)
      (.ok (context, evidence)) := by
  obtain ⟨⟨t, hcontext⟩, htype⟩ := h
  let evidence : EffectEvidence τ :=
    ServiceGateway.evidenceFor context { service := "transaction" } "" t .succeeded
  refine ⟨.evidence evidence, Task.Resolves.bind (a := context) ?_ ?_⟩
  · refine Task.Resolves.answered t ?_
    refine Task.Resolves.answered true ?_
    refine Task.Resolves.bind (a := context) hcontext ?_
    exact Task.Resolves.answered false rfl
  · rw [if_neg (not_not.mpr htype)]
    refine Task.Resolves.answered "" ?_
    exact Task.Resolves.answered t rfl

theorem resolves_refused (t : τ) (call : TransactionCall τ) :
    ∃ e, Task.Resolves (S := services τ) (call.perform (some gateway))
      (.ok { operations := [], result := .error e }) := by
  have hrefused := resolves_authorizedFor_refused (τ := τ) gateway t
  cases call with
  | queueJob input context =>
    obtain ⟨e, he⟩ := hrefused context "jobs.create" input.tenantId "job"
    exact ⟨e, Task.Resolves.bind he.attempt rfl⟩
  | queueNotification input context =>
    obtain ⟨e, he⟩ := hrefused context "notifications.send" input.tenantId "notification"
    exact ⟨e, Task.Resolves.bind he.attempt rfl⟩
  | queueWebhookDeliveries endpointIds event context =>
    obtain ⟨e, he⟩ := hrefused context "webhooks.emit" event.tenantId "webhook_event"
    exact ⟨e, Task.Resolves.bind he.attempt rfl⟩

theorem resolves_late {call : TransactionCall τ} (h : call.RefusedLate) :
    ∃ evidence e, Task.Resolves (S := services τ) (call.perform (some gateway))
      (.ok { operations := [evidence], result := .error e }) := by
  obtain ⟨haccepted, hmatched⟩ := h
  cases call with
  | queueJob input context =>
    obtain ⟨evidence, hresolves⟩ := resolves_authorizedFor_accepted gateway haccepted
    by_cases htype : context.resource.attribute "jobType" = some input.type
    · have hdelegation : input.delegationId ≠ none ∧
          input.delegationId ≠ ServiceGateway.effectiveDelegation context := by
        rw [← not_or]
        exact fun hd => hmatched ⟨htype, hd⟩
      refine ⟨evidence, serviceError .denied
        "Execution context was not issued for this delegation",
        Task.Resolves.bind hresolves.attempt ?_⟩
      simp only
      rw [if_neg (not_not.mpr htype), if_pos hdelegation]
      rfl
    · refine ⟨evidence, serviceError .denied
        ("Execution context was not issued for job type " ++ input.type),
        Task.Resolves.bind hresolves.attempt ?_⟩
      simp only
      rw [if_pos htype]
      rfl
  | queueNotification input context =>
    obtain ⟨evidence, hresolves⟩ := resolves_authorizedFor_accepted gateway haccepted
    by_cases hrecipient : context.resource.attribute "recipient" = some input.recipient
    · cases hcontent : input.assertContent with
      | ok _ => exact absurd ⟨hrecipient, hcontent⟩ hmatched
      | error e =>
        refine ⟨evidence, e, Task.Resolves.bind hresolves.attempt ?_⟩
        simp only
        rw [if_neg (not_not.mpr hrecipient), hcontent]
        rfl
    · refine ⟨evidence, serviceError .denied
        "Execution context was not issued for this recipient",
        Task.Resolves.bind hresolves.attempt ?_⟩
      simp only
      rw [if_pos hrecipient]
      rfl
  | queueWebhookDeliveries endpointIds event context =>
    obtain ⟨evidence, hresolves⟩ := resolves_authorizedFor_accepted gateway haccepted
    refine ⟨evidence, serviceError .denied
      ("Execution context was not issued for event " ++ event.type),
      Task.Resolves.bind hresolves.attempt ?_⟩
    simp only
    rw [if_pos (show context.resource.attribute "eventType" ≠ some event.type from hmatched)]
    rfl

omit [Timestamp τ] in
theorem resolves_queueDeliveries (event : QueueEventInput) (context : ServiceExecutionContext τ)
    (eventId : String) (createdAt : τ) (endpointIds : List String) :
    ∃ ops, Task.Resolves (S := services τ)
      (queueDeliveries event context eventId createdAt endpointIds) (.ok ops) := by
  induction endpointIds with
  | nil => exact ⟨[], rfl⟩
  | cons endpointId rest ih =>
    obtain ⟨ops, hops⟩ := ih
    let delivery := queuedDelivery event context endpointId eventId "" createdAt
    refine ⟨.delivery delivery :: ops, Task.Resolves.answered "" ?_⟩
    exact Task.Resolves.bind hops rfl

/-- An enabled endpoint that subscribes to the event. -/
def subscriber (event : QueueEventInput) (context : ServiceExecutionContext τ) (createdAt : τ)
    (id : String) : WebhookEndpoint τ where
  id := id
  tenantId := event.tenantId
  applicationId := some context.application
  url := "https://subscriber.example"
  events := [event.type]
  createdAt := createdAt
  createdBy := context.principal.principalId

omit [Timestamp τ] in
theorem resolves_validateAndQueue (t : τ) (endpointIds : List String) (event : QueueEventInput)
    (context : ServiceExecutionContext τ) :
    ∃ ops, Task.Resolves (S := services τ) (validateAndQueue endpointIds event context) (.ok ops) := by
  obtain ⟨ops, hops⟩ := resolves_queueDeliveries event context "" t endpointIds
  let registered := endpointIds.map (subscriber event context t)
  -- every id is found, and what is found subscribes
  have htargets : endpointIds.find? (fun id => !targets registered event context.application id) =
      none := by
    refine List.find?_eq_none.mpr fun id hid => ?_
    have hfound : (registered.find? (fun candidate => candidate.id == id)).isSome := by
      refine List.find?_isSome.mpr ⟨subscriber event context t id, List.mem_map_of_mem hid, ?_⟩
      simp [subscriber]
    obtain ⟨endpoint, hendpoint⟩ := Option.isSome_iff_exists.mp hfound
    obtain ⟨id', -, rfl⟩ := List.mem_map.mp (List.mem_of_find?_eq_some hendpoint)
    simp [targets, hendpoint, subscriber]
  let audit : WebhookAuditEvent τ := {
    id := "", type := "webhook.event.emitted", tenantId := event.tenantId
    principalId := context.principal.principalId, timestamp := t, success := true
    eventType := some event.type }
  refine ⟨ops ++ [.webhookAudit audit], Task.Resolves.answered registered ?_⟩
  rw [htargets]
  refine Task.Resolves.answered "" (Task.Resolves.answered t (Task.Resolves.bind hops ?_))
  exact Task.Resolves.answered "" rfl

/-- A call that matches an accepted context goes through. -/
theorem resolves_queued {call : TransactionCall τ} (haccepted : call.Acceptable)
    (hmatched : call.Matched) :
    ∃ queued, Task.Resolves (S := services τ) (call.perform (some gateway)) (.ok queued) ∧
      queued.result = .ok () ∧ queued.pending = .ok () := by
  cases call with
  | queueJob input context =>
    obtain ⟨evidence, hresolves⟩ := resolves_authorizedFor_accepted gateway haccepted
    obtain ⟨⟨t, -⟩, -⟩ := haccepted
    have hdelegation : ¬ (input.delegationId ≠ none ∧
        input.delegationId ≠ ServiceGateway.effectiveDelegation context) := by
      rw [← not_or, not_not]
      exact hmatched.2
    refine Task.Resolves.exists_bind hresolves.attempt ?_
    simp only
    rw [if_neg (not_not.mpr hmatched.1), if_neg hdelegation]
    refine Task.Resolves.exists_answered "" (Task.Resolves.exists_answered t ?_)
    exact Task.Resolves.exists_answered "" ⟨_, rfl, rfl, rfl⟩
  | queueNotification input context =>
    obtain ⟨evidence, hresolves⟩ := resolves_authorizedFor_accepted gateway haccepted
    obtain ⟨⟨t, -⟩, -⟩ := haccepted
    refine Task.Resolves.exists_bind hresolves.attempt ?_
    simp only
    rw [if_neg (not_not.mpr hmatched.1), hmatched.2]
    refine Task.Resolves.exists_answered "" (Task.Resolves.exists_answered t ?_)
    refine Task.Resolves.exists_answered "" (Task.Resolves.exists_answered "" ?_)
    exact ⟨_, rfl, rfl, rfl⟩
  | queueWebhookDeliveries endpointIds event context =>
    obtain ⟨evidence, hresolves⟩ := resolves_authorizedFor_accepted gateway haccepted
    obtain ⟨⟨t, -⟩, -⟩ := haccepted
    obtain ⟨ops, hops⟩ := resolves_validateAndQueue t endpointIds event context
    refine ⟨{ operations := evidence :: ops, result := .ok () },
      Task.Resolves.bind hresolves.attempt ?_, rfl, rfl⟩
    simp only
    rw [if_neg (not_not.mpr (show context.resource.attribute "eventType" = some event.type
      from hmatched))]
    exact Task.Resolves.bind hops.attempt rfl

/-- A callback whose calls can go so, and only fail where it catches, goes so. -/
theorem resolves_runCallback {calls : List (TransactionCall τ × Bool)} {went : List (Queued τ)}
    (h : List.Forall₂ (fun entry queued =>
      Task.Resolves (S := services τ) (entry.1.perform (some gateway)) (.ok queued) ∧
      (queued.result = .ok () ∨ entry.2 = true)) calls went) :
    Task.Resolves (S := services τ) (runCallback (some gateway) calls) (.ok went) := by
  induction h with
  | nil => rfl
  | @cons entry queued rest later hhead _ ih =>
    obtain ⟨call, catches⟩ := entry
    obtain ⟨hcall, hcaught⟩ := hhead
    refine Task.Resolves.bind hcall ?_
    split
    · next _ _ e hresult =>
      rcases hcaught with hok | htrue
      · rw [hok] at hresult
        cases hresult
      · cases htrue
    · exact Task.Resolves.bind ih rfl

omit [Timestamp τ] in
theorem settlePending_of_ok {went : List (Queued τ)}
    (h : ∀ queued ∈ went, queued.pending = .ok ()) : settlePending went = .ok () := by
  induction went with
  | nil => rfl
  | cons queued rest ih =>
    simp only [settlePending, h queued List.mem_cons_self]
    exact ih fun q hq => h q (List.mem_cons_of_mem _ hq)

/-- One way each call can go that does not abort the callback. A caught call that can be
refused late is. -/
theorem exists_way (t : τ) (entry : TransactionCall τ × Bool)
    (hfeasible : entry.2 = false → ¬ entry.1.Hopeless) :
    ∃ queued, Task.Resolves (S := services τ) (entry.1.perform (some gateway)) (.ok queued) ∧
      (queued.result = .ok () ∨ entry.2 = true) ∧ queued.pending = .ok () ∧
      (entry.2 = true → entry.1.RefusedLate → ¬ Accounted entry.1 queued) := by
  obtain ⟨call, catches⟩ := entry
  cases catches with
  | false =>
    obtain ⟨haccepted, hmatched⟩ := not_not.mp (hfeasible rfl)
    obtain ⟨queued, hresolves, hresult, hpending⟩ := resolves_queued gateway haccepted hmatched
    exact ⟨queued, hresolves, .inl hresult, hpending, fun h => (by cases h)⟩
  | true =>
    by_cases hlate : call.RefusedLate
    · obtain ⟨evidence, e, hresolves⟩ := resolves_late gateway hlate
      refine ⟨_, hresolves, .inr rfl, rfl, fun _ _ haccounted => ?_⟩
      cases haccounted
    · obtain ⟨e, hresolves⟩ := resolves_refused gateway t call
      exact ⟨_, hresolves, .inr rfl, rfl, fun _ h => absurd h hlate⟩

end answers

/-- A way all calls can go together that does not abort the callback. -/
theorem exists_ways (gateway : ServiceGateway) (t : τ) (calls : List (TransactionCall τ × Bool))
    (hfeasible : ∀ entry ∈ calls, entry.2 = false → ¬ entry.1.Hopeless) :
    ∃ went, List.Forall₂ (fun entry queued =>
      Task.Resolves (S := services τ) (entry.1.perform (some gateway)) (.ok queued) ∧
      (queued.result = .ok () ∨ entry.2 = true) ∧ queued.pending = .ok () ∧
      (entry.2 = true → entry.1.RefusedLate → ¬ Accounted entry.1 queued)) calls went := by
  induction calls with
  | nil => exact ⟨[], .nil⟩
  | cons entry rest ih =>
    obtain ⟨queued, hqueued⟩ := exists_way gateway t entry (hfeasible entry List.mem_cons_self)
    obtain ⟨later, hlater⟩ := ih fun e he => hfeasible e (List.mem_cons_of_mem _ he)
    exact ⟨queued :: later, .cons hqueued hlater⟩

/-- A context can be accepted only at some time. -/
theorem TransactionCall.Acceptable.time {call : TransactionCall τ} (h : call.Acceptable) :
    Nonempty τ := by
  cases call <;>
  · obtain ⟨⟨t, -⟩, -⟩ := h
    exact ⟨t⟩

/-- What a host does around its transactions. -/
inductive TransactionEntry (τ : Type) where
  | authorize (capability : String) (caller : PrincipalInput) (resource : ServiceResource)
      (requestId : String)
  | transaction (calls : List (TransactionCall τ × Bool))

def transactionBody (gateway : ServiceGateway) : TransactionEntry τ → Svc τ Unit
  | .authorize capability caller resource requestId => do
    let _ ← gateway.authorize capability caller resource requestId
    pure ()
  | .transaction calls => transaction (some gateway) calls

abbrev transactionPlatform (τ : Type) [Timestamp τ] (gateway : ServiceGateway) : Platform :=
  appPlatform (transactionBody (τ := τ) gateway) fun (f : World τ → World τ) w => some (f w)

/-- The host of the run below. -/
def storefront : ServiceGateway := { application := "app", authorizer := true, credentials := false }

def clerk : VerifiedPrincipal :=
  mintedPrincipal { principalId := "clerk", principalType := "user", tenantId := "acme" } .host 0

/-- A context that was issued to `clerk` for a job of type `report`. -/
def reportContext : ServiceExecutionContext Nat where
  application := "app"
  tenantId := "acme"
  principal := clerk
  capability := "jobs.create"
  capabilityVersion := 1
  requestId := "r1"
  resource := { type := "job", tenantId := "acme", attributes := [("jobType", "report")] }
  resourceUri := "appport://app/tenants/acme/job/*"
  authorization := { decisionId := "d1", decidedAt := 0, policyVersion := none, reason := none }
  expiresAt := 60000
  ref := 1

/-- `clerk` is allowed the context, and a transaction queues a job of another type with
it, catching what that throws. -/
def caughtRefusal : List (transactionPlatform Nat storefront).Action :=
  let decision : JsValue := .obj [
    ("decision_id", .str "d1"), ("allowed", .bool true), ("capability", .str "jobs.create"),
    ("tenant_id", .str "acme"), ("application_id", .str "app"),
    ("subject", .obj [("id", .str "clerk")]),
    ("resource", .obj [("uri", .str "appport://app/tenants/acme/job/*")])]
  [.spawn (.authorize "jobs.create" (.of clerk) reportContext.resource "r1"),
    .step 0 .proceed, .step 0 .proceed, .step 0 .proceed, .step 0 (.decision false (.ok decision)),
    .step 0 .proceed, .step 0 .proceed, .step 0 .proceed,
    .spawn (.transaction
      [(.queueJob { tenantId := "acme", type := "purge" } reportContext, true)]),
    .step 1 .proceed, .step 1 .proceed, .step 1 .proceed, .step 1 (.draw "e1"), .step 1 .proceed,
    .step 1 .proceed]

end AppPort
