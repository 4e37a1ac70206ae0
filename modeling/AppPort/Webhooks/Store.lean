import AppPort.Authority.Context

/-!
# Webhooks and their stores

The records of the webhook service (outbound endpoints and deliveries, inbound
integrations and the event identities already accepted) and the stores over them,
method by method. Each method awaits the database once, so each is one atomic
call.
-/

namespace AppPort

open Effects

variable {τ : Type}

structure WebhookEndpoint (τ : Type) where
  id : String
  tenantId : String
  applicationId : Option String := none
  url : String
  events : List String
  signingCredentialRef : Option String := none
  createdAt : τ
  createdBy : String
  disabledAt : Option τ := none
  /-- `__version`. -/
  version : Nat := 1

inductive WebhookDeliveryStatus where
  | pending
  | delivering
  | delivered
  | retrying
  | failed
  deriving DecidableEq, Repr

structure WebhookDelivery (τ : Type) where
  id : String
  tenantId : String
  endpointId : String
  eventId : String
  eventType : String
  payload : JsValue := .undefined
  status : WebhookDeliveryStatus
  attemptCount : Nat
  nextAttemptAt : Option τ := none
  createdAt : τ
  lastAttemptAt : Option τ := none
  deliveredAt : Option τ := none
  lastStatusCode : Option Nat := none
  lastError : Option String := none
  principal : Option DurablePrincipal := none
  /-- `__version`. -/
  version : Nat := 1

/-- An inbound webhook source. -/
structure WebhookIntegration (τ : Type) where
  id : String
  tenantId : String
  applicationId : String
  provider : String
  principalId : String
  signingCredentialRef : String
  createdAt : τ
  createdBy : String
  disabledAt : Option τ := none
  /-- `__version`. -/
  version : Nat := 1

/-- The identity of an accepted inbound event. -/
structure InboundWebhookRecord (τ : Type) where
  id : String
  integrationId : String
  provider : String
  eventId : String
  eventTimestamp : τ
  acceptedAt : τ
  tenantId : String

structure WebhookAuditEvent (τ : Type) where
  id : String
  type : String
  endpointId : Option String := none
  deliveryId : Option String := none
  integrationId : Option String := none
  tenantId : String
  principalId : String
  timestamp : τ
  success : Bool
  reason : Option String := none
  eventType : Option String := none

instance : Versioned (WebhookEndpoint τ) where
  version e := e.version
  withVersion e v := { e with version := v }
  version_withVersion _ _ := rfl

instance : Versioned (WebhookDelivery τ) where
  version d := d.version
  withVersion d v := { d with version := v }
  version_withVersion _ _ := rfl

@[simp] theorem version_delivery (d : WebhookDelivery τ) : Versioned.version d = d.version := rfl

@[simp] theorem withVersion_delivery (d : WebhookDelivery τ) (v : Nat) :
    Versioned.withVersion d v = { d with version := v } := rfl

/-- `Partial<WebhookDelivery>` as the webhook service writes it: `none` leaves a
field alone, `some none` writes `undefined` into an optional one. -/
structure DeliveryUpdate (τ : Type) where
  status : Option WebhookDeliveryStatus := none
  attemptCount : Option Nat := none
  nextAttemptAt : Option (Option τ) := none
  lastAttemptAt : Option (Option τ) := none
  deliveredAt : Option (Option τ) := none
  lastStatusCode : Option (Option Nat) := none
  lastError : Option (Option String) := none
  principal : Option (Option DurablePrincipal) := none

/-- The merge of an update into a record. -/
def DeliveryUpdate.apply (u : DeliveryUpdate τ) (d : WebhookDelivery τ) : WebhookDelivery τ :=
  { d with
    status := u.status.getD d.status
    attemptCount := u.attemptCount.getD d.attemptCount
    nextAttemptAt := u.nextAttemptAt.getD d.nextAttemptAt
    lastAttemptAt := u.lastAttemptAt.getD d.lastAttemptAt
    deliveredAt := u.deliveredAt.getD d.deliveredAt
    lastStatusCode := u.lastStatusCode.getD d.lastStatusCode
    lastError := u.lastError.getD d.lastError
    principal := u.principal.getD d.principal }

/-- The methods of the endpoint, delivery, integration and replay stores. -/
inductive WebhookOp (τ : Type) where
  | createEndpoint (endpoint : WebhookEndpoint τ)
  | getEndpoint (id : String)
  | listEndpoints (tenantId : String)
  | disableEndpoint (id : String) (expectedVersion : Nat) (disabledAt : τ)
  | createDeliveries (deliveries : List (WebhookDelivery τ))
  | getDelivery (id : String)
  | listDeliveries (tenantId : String) (endpointId : Option String) (limit : Option Nat)
  | pageDeliveries (tenantId : String) (endpointId : Option String)
      (status : Option WebhookDeliveryStatus) (limit : Nat)
  | claimDelivery (id : String) (expectedVersion : Nat)
  | updateDelivery (id : String) (expectedVersion : Nat) (updates : DeliveryUpdate τ)
  | createIntegration (integration : WebhookIntegration τ)
  | getIntegration (id : String)
  | acceptInbound (record : InboundWebhookRecord τ)

/-- What they answer with. -/
@[reducible] def WebhookOp.Out (τ : Type) : WebhookOp τ → Type
  | .createEndpoint _ | .createDeliveries _ | .createIntegration _ => Unit
  | .getEndpoint _ | .disableEndpoint _ _ _ => Option (WebhookEndpoint τ)
  | .listEndpoints _ => List (WebhookEndpoint τ)
  | .getDelivery _ | .claimDelivery _ _ | .updateDelivery _ _ _ => Option (WebhookDelivery τ)
  | .listDeliveries _ _ _ | .pageDeliveries _ _ _ _ => List (WebhookDelivery τ)
  | .getIntegration _ => Option (WebhookIntegration τ)
  | .acceptInbound _ => Bool

/-- The collections of the webhook stores. -/
structure WebhookTables (τ : Type) where
  endpoints : Table String (WebhookEndpoint τ) := Table.empty
  deliveries : Table String (WebhookDelivery τ) := Table.empty
  integrations : Table String (WebhookIntegration τ) := Table.empty
  inbound : Table String (InboundWebhookRecord τ) := Table.empty

/-- Insert all records or none (`db.transaction` with `requireAbsent`). -/
def insertAll {α : Type} (idOf : α → String) (t : Table String α) : List α → Option (Table String α)
  | [] => some t
  | a :: rest =>
    match t.insertAbsent (idOf a) a with
    | some t' => insertAll idOf t' rest
    | none => none

/-- Nothing was stored under the ids that are new. -/
theorem get_insertAll {α : Type} {idOf : α → String} :
    {as : List α} → {t t' : Table String α} → insertAll idOf t as = some t' → (id : String) →
    t'.get id = t.get id ∨ (t.get id = none ∧ ∃ a ∈ as, idOf a = id ∧ t'.get id = some a)
  | [], t, t', h, id => by
    obtain rfl := Option.some.inj h
    exact .inl rfl
  | a :: rest, t, t', h, id => by
    simp only [insertAll] at h
    cases hinsert : t.insertAbsent (idOf a) a with
    | none =>
      rw [hinsert] at h
      cases h
    | some t₁ =>
      rw [hinsert] at h
      obtain ⟨hnone, rfl⟩ := Table.insertAbsent_eq_some hinsert
      by_cases hid : id = idOf a
      · subst hid
        rcases get_insertAll h (idOf a) with hsame | ⟨hgone, -⟩
        · rw [Table.get_put_same] at hsame
          exact .inr ⟨hnone, a, List.mem_cons_self, rfl, hsame⟩
        · rw [Table.get_put_same] at hgone
          cases hgone
      · have hother := t.get_put_other a hid
        rcases get_insertAll h id with hsame | ⟨hgone, b, hb, hbid, hget⟩
        · exact .inl (hsame.trans hother)
        · exact .inr ⟨hother.symm.trans hgone, b, List.mem_cons_of_mem a hb, hbid, hget⟩

/-- What was there stays. -/
theorem insertAll_keeps {α : Type} {idOf : α → String} {as : List α} {t t' : Table String α}
    (h : insertAll idOf t as = some t') {id : String} (hid : (t.get id).isSome = true) :
    (t'.get id).isSome = true := by
  rcases get_insertAll h id with hsame | ⟨hgone, -⟩
  · rw [hsame]
    exact hid
  · rw [hgone] at hid
    cases hid

/-- All of them are stored. -/
theorem insertAll_stores {α : Type} {idOf : α → String} :
    {as : List α} → {t t' : Table String α} → insertAll idOf t as = some t' →
    ∀ a ∈ as, (t'.get (idOf a)).isSome = true
  | [], _, _, _, _, ha => (List.not_mem_nil ha).elim
  | b :: rest, t, t', h, a, ha => by
    simp only [insertAll] at h
    cases hinsert : t.insertAbsent (idOf b) b with
    | none =>
      rw [hinsert] at h
      cases h
    | some t₁ =>
      rw [hinsert] at h
      obtain ⟨-, rfl⟩ := Table.insertAbsent_eq_some hinsert
      rcases List.mem_cons.mp ha with rfl | ha
      · exact insertAll_keeps h (by simp)
      · exact insertAll_stores h a ha

/-- The update `claim` writes; `now` is the store's own clock. -/
def claimDeliveryUpdate (now : τ) : DeliveryUpdate τ :=
  { status := some .delivering, lastAttemptAt := some (some now) }

/-- `limit ? results.slice(0, limit) : results`. -/
def sliceLimit {α : Type} (limit : Option Nat) (xs : List α) : List α :=
  match limit with
  | some (n + 1) => xs.take (n + 1)
  | _ => xs

/-- The webhook stores over their tables. -/
def WebhookOp.exec (now : τ) (db : WebhookTables τ) :
    (op : WebhookOp τ) → Except JsError (op.Out τ) × WebhookTables τ
  | .createEndpoint endpoint =>
    match db.endpoints.insertAbsent endpoint.id endpoint with
    | some endpoints => (.ok (), { db with endpoints })
    | none => (.error absentError, db)
  | .getEndpoint id => (.ok (db.endpoints.get id), db)
  | .listEndpoints tenantId => (.ok (db.endpoints.find (fun e => e.tenantId == tenantId)), db)
  | .disableEndpoint id expectedVersion disabledAt =>
    match db.endpoints.updateIfVersion id expectedVersion
        (fun e => { e with disabledAt := some disabledAt }) with
    | (r, endpoints) => (.ok r, { db with endpoints })
  | .createDeliveries deliveries =>
    match insertAll WebhookDelivery.id db.deliveries deliveries with
    | some deliveries => (.ok (), { db with deliveries })
    | none => (.error absentError, db)
  | .getDelivery id => (.ok (db.deliveries.get id), db)
  | .listDeliveries tenantId endpointId limit =>
    (.ok (sliceLimit limit (db.deliveries.find (fun d => d.tenantId == tenantId &&
      (match keepPresent endpointId with | some e => d.endpointId == e | none => true)))), db)
  | .pageDeliveries tenantId endpointId status limit =>
    (.ok ((db.deliveries.find (fun d => d.tenantId == tenantId &&
      (match keepPresent endpointId with | some e => d.endpointId == e | none => true) &&
      (match status with | some s => d.status == s | none => true))).take limit), db)
  | .claimDelivery id expectedVersion =>
    match db.deliveries.updateIfVersion id expectedVersion (claimDeliveryUpdate now).apply with
    | (r, deliveries) => (.ok r, { db with deliveries })
  | .updateDelivery id expectedVersion updates =>
    match db.deliveries.updateIfVersion id expectedVersion updates.apply with
    | (r, deliveries) => (.ok r, { db with deliveries })
  | .createIntegration integration =>
    match db.integrations.insertAbsent integration.id integration with
    | some integrations => (.ok (), { db with integrations })
    | none => (.error absentError, db)
  | .getIntegration id => (.ok (db.integrations.get id), db)
  | .acceptInbound record =>
    match db.inbound.insertAbsent record.id record with
    | some inbound => (.ok true, { db with inbound })
    | none => (.ok false, db)

end AppPort
