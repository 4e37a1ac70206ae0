import AppPort.Authority.Context
import AppPort.Webhooks.Store

/-!
# Notifications and their stores

The records of the notification service, and the calls its stores make: a
notification and its deliveries are created in one transaction, and everything after
that is a version-checked write of one record.
-/

namespace AppPort

open Effects

variable {τ : Type}

inductive NotificationPriority where
  | low
  | normal
  | high
  | urgent
  deriving DecidableEq, Repr

inductive NotificationStatus where
  | pending
  | delivered
  | failed
  | read
  | acknowledged
  | expired
  deriving DecidableEq, Repr

/-- A reference to the event that caused a notification. -/
structure NotificationSource where
  type : String
  id : Option String := none
  eventId : Option String := none
  deriving DecidableEq, Repr

/-- The source as the object it is. -/
def NotificationSource.toJs (source : NotificationSource) : JsValue :=
  .obj (("type", .str source.type) ::
    (source.id.map fun id => ("id", JsValue.str id)).toList ++
    (source.eventId.map fun id => ("eventId", JsValue.str id)).toList)

structure Notification (τ : Type) where
  id : String
  tenantId : String
  applicationId : Option String := none
  recipient : String
  type : String
  title : String
  body : Option String := none
  data : Option JsValue := none
  source : Option NotificationSource := none
  priority : NotificationPriority
  channels : List String
  status : NotificationStatus
  idempotencyKey : Option String := none
  createdAt : τ
  createdBy : Option String := none
  expiresAt : Option τ := none
  deliveredAt : Option τ := none
  failedAt : Option τ := none
  expiredAt : Option τ := none
  readAt : Option τ := none
  acknowledgedAt : Option τ := none
  dismissedAt : Option τ := none
  /-- `__version`. -/
  version : Nat := 1

inductive NotificationDeliveryStatus where
  | pending
  | delivered
  | failed
  | retrying
  deriving DecidableEq, Repr

/-- The state of one channel of a notification. -/
structure NotificationDelivery (τ : Type) where
  id : String
  tenantId : String
  notificationId : String
  recipient : String
  channel : String
  status : NotificationDeliveryStatus
  idempotencyKey : String
  attemptCount : Nat
  maxAttempts : Int
  createdAt : τ
  lastAttemptAt : Option τ := none
  nextAttemptAt : Option τ := none
  deliveredAt : Option τ := none
  failedAt : Option τ := none
  failureReason : Option String := none
  externalId : Option String := none
  /-- `__version`. -/
  version : Nat := 1

structure NotificationAuditEvent (τ : Type) where
  id : String
  type : String
  notificationId : String
  tenantId : String
  recipient : String
  principalId : String
  timestamp : τ
  success : Bool
  channel : Option String := none
  deliveryId : Option String := none

/-- What a channel reports of one attempt. -/
inductive NotificationDeliveryResult where
  | delivered (externalId : Option String)
  | failed (reason : String) (retryable : Option Bool)
  deriving DecidableEq, Repr

instance : Versioned (Notification τ) where
  version n := n.version
  withVersion n v := { n with version := v }
  version_withVersion _ _ := rfl

instance : Versioned (NotificationDelivery τ) where
  version d := d.version
  withVersion d v := { d with version := v }
  version_withVersion _ _ := rfl

@[simp] theorem version_notificationDelivery (d : NotificationDelivery τ) :
    Versioned.version d = d.version := rfl

@[simp] theorem withVersion_notificationDelivery (d : NotificationDelivery τ) (v : Nat) :
    Versioned.withVersion d v = { d with version := v } := rfl

/-- `Partial<Notification>` as the service writes it: `none` leaves a field alone,
`some none` writes `undefined` into an optional one. -/
structure NotificationUpdate (τ : Type) where
  status : Option NotificationStatus := none
  deliveredAt : Option (Option τ) := none
  failedAt : Option (Option τ) := none
  expiredAt : Option (Option τ) := none
  readAt : Option (Option τ) := none
  acknowledgedAt : Option (Option τ) := none
  dismissedAt : Option (Option τ) := none

/-- The merge of an update into a record. -/
def NotificationUpdate.apply (u : NotificationUpdate τ) (n : Notification τ) : Notification τ :=
  { n with
    status := u.status.getD n.status
    deliveredAt := u.deliveredAt.getD n.deliveredAt
    failedAt := u.failedAt.getD n.failedAt
    expiredAt := u.expiredAt.getD n.expiredAt
    readAt := u.readAt.getD n.readAt
    acknowledgedAt := u.acknowledgedAt.getD n.acknowledgedAt
    dismissedAt := u.dismissedAt.getD n.dismissedAt }

/-- `Partial<NotificationDelivery>` as the service writes it. -/
structure NotificationDeliveryUpdate (τ : Type) where
  status : Option NotificationDeliveryStatus := none
  attemptCount : Option Nat := none
  maxAttempts : Option Int := none
  lastAttemptAt : Option (Option τ) := none
  nextAttemptAt : Option (Option τ) := none
  deliveredAt : Option (Option τ) := none
  failedAt : Option (Option τ) := none
  failureReason : Option (Option String) := none
  externalId : Option (Option String) := none

def NotificationDeliveryUpdate.apply (u : NotificationDeliveryUpdate τ) (d : NotificationDelivery τ) :
    NotificationDelivery τ :=
  { d with
    status := u.status.getD d.status
    attemptCount := u.attemptCount.getD d.attemptCount
    maxAttempts := u.maxAttempts.getD d.maxAttempts
    lastAttemptAt := u.lastAttemptAt.getD d.lastAttemptAt
    nextAttemptAt := u.nextAttemptAt.getD d.nextAttemptAt
    deliveredAt := u.deliveredAt.getD d.deliveredAt
    failedAt := u.failedAt.getD d.failedAt
    failureReason := u.failureReason.getD d.failureReason
    externalId := u.externalId.getD d.externalId }

/-- The calls of the notification and delivery stores. -/
inductive NotificationOp (τ : Type) where
  /-- The transaction of `createWithDeliveries`. -/
  | commitNotification (item : Notification τ) (deliveries : List (NotificationDelivery τ))
  | getNotification (id : String)
  | listNotifications (tenantId : String)
  | updateNotification (id : String) (expectedVersion : Nat) (updates : NotificationUpdate τ)
  | deleteNotification (id : String)
  | getDelivery (id : String)
  | listDeliveries (tenantId : String) (notificationId : Option String)
  | updateDelivery (tenantId id : String) (expectedVersion : Nat)
      (updates : NotificationDeliveryUpdate τ)
  | deleteDelivery (id : String)

/-- What they answer with. -/
@[reducible] def NotificationOp.Out (τ : Type) : NotificationOp τ → Type
  | .commitNotification _ _ | .deleteNotification _ | .deleteDelivery _ => Unit
  | .getNotification _ | .updateNotification _ _ _ => Option (Notification τ)
  | .listNotifications _ => List (Notification τ)
  | .getDelivery _ | .updateDelivery _ _ _ _ => Option (NotificationDelivery τ)
  | .listDeliveries _ _ => List (NotificationDelivery τ)

/-- The collections of the notification stores. -/
structure NotificationTables (τ : Type) where
  notifications : Table String (Notification τ) := Table.empty
  deliveries : Table String (NotificationDelivery τ) := Table.empty

/-- The notification and delivery stores over their tables. -/
def NotificationOp.exec (db : NotificationTables τ) :
    (op : NotificationOp τ) → Except JsError (op.Out τ) × NotificationTables τ
  | .commitNotification item deliveries =>
    match db.notifications.insertAbsent item.id item,
        insertAll NotificationDelivery.id db.deliveries deliveries with
    | some notifications, some deliveries => (.ok (), { notifications, deliveries })
    | _, _ => (.error absentError, db)
  | .getNotification id => (.ok (db.notifications.get id), db)
  | .listNotifications tenantId => (.ok (db.notifications.find (fun n => n.tenantId == tenantId)), db)
  | .updateNotification id expectedVersion updates =>
    match db.notifications.updateIfVersion id expectedVersion updates.apply with
    | (r, notifications) => (.ok r, { db with notifications })
  | .deleteNotification id => (.ok (), { db with notifications := db.notifications.erase id })
  | .getDelivery id => (.ok (db.deliveries.get id), db)
  | .listDeliveries tenantId notificationId =>
    (.ok (db.deliveries.find (fun d => d.tenantId == tenantId &&
      (match keepPresent notificationId with | some n => d.notificationId == n | none => true))), db)
  | .updateDelivery tenantId id expectedVersion updates =>
    -- the tenant is compared before the write
    if (db.deliveries.get id).any (fun d => d.tenantId == tenantId) then
      match db.deliveries.updateIfVersion id expectedVersion updates.apply with
      | (r, deliveries) => (.ok r, { db with deliveries })
    else (.ok none, db)
  | .deleteDelivery id => (.ok (), { db with deliveries := db.deliveries.erase id })

end AppPort
