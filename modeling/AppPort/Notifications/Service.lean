import AppPort.Jobs.Service
import AppPort.Notifications.Sensitive

/-!
# The notification service

`NotificationService`, from the creation of a notification to the attempts of its
deliveries: what `notify` does once its input is normalized, the attempt itself, how it
is settled, retried and recovered.

Where the code awaits `Promise.all` over several deliveries, every one of them is a
process of its own here: the entry points take the `branch` they go on with. Of
`notify`'s answer only `created` is kept.
-/

namespace AppPort

open Effects Pattern Sensitive

variable {τ : Type}

/-- The job type that carries delivery retries. -/
def NOTIFICATION_DELIVERY_JOB : String := "appport.notifications.deliver"

def DEFAULT_MAX_DELIVERY_ATTEMPTS : Int := 5

def DEFAULT_RETRY_DELAY_MS : Nat := 1000

def MAX_RETRY_DELAY_MS : Nat := 60 * 60 * 1000

def ATTEMPT_LEASE_MS : Nat := 30000

inductive AttemptMode where
  | initial
  | scheduled
  | manual
  deriving DecidableEq, Repr

/-- What `normalizeInput` answers with. -/
structure NormalizedNotification (τ : Type) where
  tenantId : String
  recipient : String
  type : String
  title : String
  priority : NotificationPriority
  channels : List String
  body : Option String := none
  data : Option JsValue := none
  source : Option NotificationSource := none
  idempotencyKey : Option String := none
  expiresAt : Option τ := none

/-- The options of a notification service. -/
structure NotificationService (τ : Type) where
  authority : Option ServiceGateway := none
  jobs : Option (JobService τ) := none
  /-- The channels that are registered. -/
  channels : List String := ["in-app"]
  maxDeliveryAttempts : Int := DEFAULT_MAX_DELIVERY_ATTEMPTS
  retryDelayMs : Nat := DEFAULT_RETRY_DELAY_MS
  deliverInline : Bool := true
  /-- The id `stableUuid` derives from its parts. -/
  stableUuid : List String → String

/-! ## Failure reasons -/

/-- `isSensitiveReason`: a credential, or the name of one before `:` or `=`. -/
def SENSITIVE_REASON : Pattern :=
  let dash := opt (unit fun n => (jsUnits "_-").contains n)
  all [edge, oneOf [textCI "password", textCI "passwd", textCI "passphrase", textCI "authorization",
      all [textCI "refresh", dash, textCI "token"], all [textCI "access", dash, textCI "token"],
      all [textCI "id", dash, textCI "token"], all [textCI "session", dash, textCI "token"],
      all [textCI "api", dash, textCI "key"], all [textCI "client", dash, textCI "secret"],
      all [textCI "private", dash, textCI "key"],
      all [textCI "signing", dash, oneOf [textCI "key", textCI "secret"]],
      textCI "cookie", textCI "cookies", textCI "credential", textCI "credentials"],
    edge, many 0 space, unit fun n => (jsUnits ":=").contains n]

def isSensitiveReason (reason : String) : Bool :=
  isSensitiveValue reason || SENSITIVE_REASON.test (jsUnits reason)

/-- The characters of a text that fit into `n` code units. -/
def unitPrefix : Nat → List Char → List Char
  | _, [] => []
  | n, c :: rest =>
    let width := (jsUnits c.toString).length
    if width ≤ n then c :: unitPrefix (n - width) rest else []

/-- `safeReason`. -/
def safeReason (reason : String) : String :=
  let trimmed := String.ofList (unitPrefix 500 (if reason = "" then "delivery_failed" else reason).toList)
  if isSensitiveReason trimmed then
    "delivery_failed (details withheld: contained credential material)"
  else trimmed

/-! ## The stores -/

/-- `NotificationStore.get`. -/
def storedNotification (tenantId id : String) : Svc τ (Option (Notification τ)) := do
  let item : Option (Notification τ) ← (NotificationOp.getNotification id).perform
  pure (item.filter fun n => n.tenantId == tenantId)

/-- `NotificationDeliveryStore.get`. -/
def storedDelivery (tenantId id : String) : Svc τ (Option (NotificationDelivery τ)) := do
  let item : Option (NotificationDelivery τ) ← (NotificationOp.getDelivery id).perform
  pure (item.filter fun d => d.tenantId == tenantId)

/-- The deliveries among these that are stored. -/
def orphanedDeliveries : List (NotificationDelivery τ) → Svc τ (List String)
  | [] => pure []
  | delivery :: rest => do
    let item : Option (NotificationDelivery τ) ← (NotificationOp.getDelivery delivery.id).perform
    let others ← orphanedDeliveries rest
    pure (if item.isSome then delivery.id :: others else others)

/-- `NotificationStore.createWithDeliveries`. -/
def createWithDeliveries (item : Notification τ) (deliveries : List (NotificationDelivery τ)) :
    Svc τ Bool :=
  Task.tryCatch
    (do
      (NotificationOp.commitNotification item deliveries).perform
      pure true)
    fun error => do
      let existing : Option (Notification τ) ← (NotificationOp.getNotification item.id).perform
      if existing.isSome then pure false
      else
        let staleIds ← orphanedDeliveries deliveries
        if staleIds.isEmpty then throw error
        else
          Task.forEach (fun id => (NotificationOp.deleteDelivery id).perform) staleIds
          (NotificationOp.commitNotification item deliveries).perform
          pure true

namespace NotificationService

/-! ## Audit -/

/-- `audit`. -/
def audit (type : String) (item : Notification τ) (principalId : String)
    (delivery : Option (NotificationDelivery τ)) : Svc τ Unit := do
  let id ← randomUUID
  let timestamp ← now
  (AuditOp.notification {
    id, type, notificationId := item.id, tenantId := item.tenantId, recipient := item.recipient
    principalId, timestamp
    success := !(type == "notification.delivery.failed" || type == "notification.delivery.retrying")
    channel := delivery.map NotificationDelivery.channel
    deliveryId := delivery.map NotificationDelivery.id }).perform

variable [Timestamp τ] (service : NotificationService τ)

/-! ## The notification's own state -/

/-- `transitionNotification`: read, change under the version, again on a conflict. -/
def transitionNotification (tenantId id : String)
    (change : Notification τ → Option (NotificationUpdate τ)) (type : Option String) :
    Nat → Svc τ Unit
  | 0 => pure ()
  | attempts + 1 => do
    let item ← storedNotification tenantId id
    match item with
    | none => pure ()
    | some item =>
      match change item with
      | none => pure ()
      | some updates => do
        let updated : Option (Notification τ) ←
          (NotificationOp.updateNotification item.id item.version updates).perform
        match updated, type with
        | some updated, some type => audit type updated "system" none
        | some _, none => pure ()
        | none, _ => transitionNotification tenantId id change type attempts

/-- The attempts `transitionNotification` makes. -/
def TRANSITION_ATTEMPTS : Nat := 5

/-- `refreshStatus`, given its deliveries and time. -/
def summarize (deliveries : List (NotificationDelivery τ)) (now : τ) (item : Notification τ) :
    Option (NotificationUpdate τ) :=
  if item.status ≠ .pending ∧ item.status ≠ .failed then none
  else if deliveries.any fun delivery => delivery.status == .delivered then
    some { status := some .delivered, deliveredAt := some (some now), failedAt := some none }
  else if item.status = .pending ∧ deliveries ≠ [] ∧
      deliveries.all fun delivery => delivery.status == .failed then
    some { status := some .failed, failedAt := some (some now) }
  else none

/-- `refreshStatus`. -/
def refreshStatus (tenantId id : String) : Svc τ Unit := do
  let deliveries : List (NotificationDelivery τ) ←
    (NotificationOp.listDeliveries tenantId (some id)).perform
  let t ← now
  transitionNotification tenantId id (summarize deliveries t) none TRANSITION_ATTEMPTS

/-- The notification can still expire. -/
def canExpire (item : Notification τ) : Bool :=
  item.status == .pending || item.status == .delivered || item.status == .failed

/-- `view`. -/
def view (item : Notification τ) : Svc τ (Notification τ) :=
  match item.expiresAt with
  | none => pure item
  | some expiresAt => do
    let t ← now
    pure (if expiresAt ≤ t ∧ canExpire item then { item with status := .expired } else item)

/-! ## Settling an attempt -/

/-- `scheduleAttempt`. -/
def scheduleAttempt (jobs : JobService τ) (delivery : NotificationDelivery τ) (runAt : τ) :
    Svc τ Unit := do
  let _ ← jobs.systemEnqueue {
    tenantId := some delivery.tenantId, type := NOTIFICATION_DELIVERY_JOB
    payload := .obj [("deliveryId", .str delivery.id)]
    runAt := some runAt, maxAttempts := some 3 }
  pure ()

/-- The delay before the next attempt. -/
def retryDelay (attemptCount : Nat) : Nat :=
  min (service.retryDelayMs * 2 ^ (attemptCount - 1)) MAX_RETRY_DELAY_MS

/-- A failed attempt may be made again. -/
def canRetry (delivery : NotificationDelivery τ) (retryable : Option Bool) : Bool :=
  retryable != some false && service.jobs.isSome &&
    decide ((delivery.attemptCount : Int) < delivery.maxAttempts)

/-- The update that settles an attempt, and its audit type. -/
def settlementUpdate (delivery : NotificationDelivery τ) (t : τ) :
    NotificationDeliveryResult → Svc τ (NotificationDeliveryUpdate τ × String)
  | .delivered externalId =>
    pure ({ status := some .delivered, deliveredAt := some (some t), nextAttemptAt := some none
            failureReason := some none, externalId := (keepPresent externalId).map some },
      "notification.delivery.delivered")
  | .failed reason retryable =>
    if service.canRetry delivery retryable then do
      let t' ← now
      let nextAttemptAt ← check (laterThan t' (service.retryDelay delivery.attemptCount))
      pure ({ status := some .retrying, failureReason := some (some (safeReason reason))
              nextAttemptAt := some (some nextAttemptAt) }, "notification.delivery.retrying")
    else
      pure ({ status := some .failed, failureReason := some (some (safeReason reason))
              failedAt := some (some t), nextAttemptAt := some none },
        "notification.delivery.failed")

/-- A retry is scheduled where the delivery waits for one. -/
def scheduleRetry (updated : NotificationDelivery τ) : Svc τ Unit :=
  match updated.status, service.jobs, updated.nextAttemptAt with
  | .retrying, some jobs, some nextAttemptAt => scheduleAttempt jobs updated nextAttemptAt
  | _, _, _ => pure ()

/-- The notification of a settled delivery, where it still exists, hears of it. -/
def reportSettlement (notification : Option (Notification τ)) (type : String)
    (updated : NotificationDelivery τ) : Svc τ Unit :=
  match notification with
  | none => pure ()
  | some notification => do
    audit type notification "system" (some updated)
    refreshStatus notification.tenantId notification.id

/-- What follows a settlement that went through. -/
def afterSettlement (notification : Option (Notification τ)) (type : String)
    (updated : NotificationDelivery τ) : Svc τ (Option (NotificationDelivery τ)) := do
  service.scheduleRetry updated
  reportSettlement notification type updated
  pure (some updated)

/-- `finishDelivery`. -/
def finishDelivery (delivery : NotificationDelivery τ) (notification : Option (Notification τ))
    (result : NotificationDeliveryResult) : Svc τ (Option (NotificationDelivery τ)) := do
  let t ← now
  let (updates, type) ← service.settlementUpdate delivery t result
  let updated : Option (NotificationDelivery τ) ←
    (NotificationOp.updateDelivery delivery.tenantId delivery.id delivery.version updates).perform
  match updated with
  | none => storedDelivery delivery.tenantId delivery.id
  | some updated => service.afterSettlement notification type updated

/-! ## The attempt -/

/-- The channel is invoked, and an error of its is a failure that can be retried. -/
def deliver (notification : Notification τ) (claimed : NotificationDelivery τ) :
    Svc τ NotificationDeliveryResult :=
  Task.tryCatch
    (do
      let viewed ← view notification
      (HostOp.startChannel viewed claimed).perform
      (HostOp.awaitChannel claimed).perform)
    fun error => pure (.failed error.message (some true))

/-- A job that comes before the delivery is to be attempted again. -/
def comesEarly (mode : AttemptMode) (delivery : NotificationDelivery τ) (now : τ) : Bool :=
  mode == .scheduled && delivery.status == .retrying && delivery.nextAttemptAt.any fun t => now < t

/-- Another attempt on a pending delivery is still within its lease. -/
def isLeased (delivery : NotificationDelivery τ) (leaseCutoff : τ) : Bool :=
  delivery.status == .pending && delivery.lastAttemptAt.any fun t => leaseCutoff < t

/-- Claim the delivery under the version it was read with, and attempt it. -/
def claimAndDeliver (tenantId : String) (delivery : NotificationDelivery τ)
    (notification : Notification τ) (t : τ) : Svc τ (Option (NotificationDelivery τ)) := do
  let claimed : Option (NotificationDelivery τ) ←
    (NotificationOp.updateDelivery tenantId delivery.id delivery.version
      { attemptCount := some (delivery.attemptCount + 1), lastAttemptAt := some (some t) }).perform
  match claimed with
  | none => storedDelivery tenantId delivery.id
  | some claimed => do
    let result ← deliver notification claimed
    service.finishDelivery claimed (some notification) result

/-- `attemptDelivery` past its guards. -/
def attemptUnleased (tenantId : String) (delivery : NotificationDelivery τ) (t : τ) :
    Svc τ (Option (NotificationDelivery τ)) := do
  let notification ← storedNotification tenantId delivery.notificationId
  match notification with
  | none => service.finishDelivery delivery none (.failed "notification_deleted" (some false))
  | some notification =>
    if notification.expiresAt.any fun expiresAt => expiresAt ≤ t then do
      let failed ← service.finishDelivery delivery (some notification)
        (.failed "notification_expired" (some false))
      transitionNotification tenantId notification.id
        (fun item => if canExpire item then
          some { status := some .expired, expiredAt := some (some t) } else none)
        (some "notification.expired") TRANSITION_ATTEMPTS
      pure failed
    else if delivery.channel ∉ service.channels then
      service.finishDelivery delivery (some notification) (.failed "channel_unavailable" (some false))
    else service.claimAndDeliver tenantId delivery notification t

/-- `attemptDelivery`. -/
def attemptDelivery (tenantId deliveryId : String) (mode : AttemptMode) :
    Svc τ (Option (NotificationDelivery τ)) := do
  let delivery ← storedDelivery tenantId deliveryId
  match delivery with
  | none => pure none
  | some delivery =>
    if delivery.status = .delivered ∨ delivery.status = .failed then pure (some delivery)
    else do
      let t ← now
      let leaseCutoff ← check (earlierThan t ATTEMPT_LEASE_MS)
      if comesEarly mode delivery t || isLeased delivery leaseCutoff then pure (some delivery)
      else service.attemptUnleased tenantId delivery t

/-! ## Where attempts come from -/

/-- `dispatch`. -/
def dispatch (delivery : NotificationDelivery τ) : Svc τ Unit :=
  match service.deliverInline, service.jobs with
  | false, some jobs => do
    let t ← now
    scheduleAttempt jobs delivery t
  | _, _ => (service.attemptDelivery delivery.tenantId delivery.id .initial).ignore

/-- `dispatchPending`, as far as one of the deliveries is concerned. -/
def dispatchPending (tenantId notificationId : String) (branch : Nat) : Svc τ Unit := do
  let deliveries : List (NotificationDelivery τ) ←
    (NotificationOp.listDeliveries tenantId (some notificationId)).perform
  let pending := deliveries.filter fun d => d.status == .pending && d.attemptCount == 0
  match pending[branch]? with
  | none => pure ()
  | some delivery => service.dispatch delivery

/-- `recoverDeliveries`, as far as one of the deliveries is concerned. -/
def recoverDeliveries (tenantId : String) (branch : Nat) : Svc τ Unit := do
  let t ← now
  let leaseCutoff ← check (earlierThan t ATTEMPT_LEASE_MS)
  let deliveries : List (NotificationDelivery τ) ←
    (NotificationOp.listDeliveries tenantId none).perform
  let pending := deliveries.filter fun d => d.status == .pending &&
    d.lastAttemptAt.all fun t => t ≤ leaseCutoff
  match pending[branch]? with
  | none => pure ()
  | some delivery => service.dispatch delivery

/-- `runDeliveryJob`: the handler of the delivery jobs. -/
def runDeliveryJob (job : Job τ) : Svc τ Unit :=
  match job.payload.prop "deliveryId" with
  | .str deliveryId => do
    let _ ← service.attemptDelivery job.tenantId deliveryId .scheduled
    pure ()
  | _ => throw (.other "Delivery job payload is invalid")

/-! ## Creation -/

/-- The notification `notifyInternal` writes. -/
def notificationRecord (input : NormalizedNotification τ) (id createdBy : String)
    (applicationId : Option String) (createdAt : τ) : Notification τ where
  id := id
  tenantId := input.tenantId
  applicationId := keepPresent applicationId
  recipient := input.recipient
  type := input.type
  title := input.title
  body := input.body
  data := input.data
  source := input.source
  priority := input.priority
  channels := input.channels
  status := .pending
  idempotencyKey := input.idempotencyKey
  createdAt := createdAt
  createdBy := some createdBy
  expiresAt := input.expiresAt
  version := 1

/-- The delivery of one channel. -/
def deliveryRecord (notification : Notification τ) (createdAt : τ) (channel : String) :
    NotificationDelivery τ where
  id := service.stableUuid ["delivery", notification.id, channel]
  tenantId := notification.tenantId
  notificationId := notification.id
  recipient := notification.recipient
  channel := channel
  status := .pending
  idempotencyKey := notification.id ++ ":" ++ channel
  attemptCount := 0
  maxAttempts := service.maxDeliveryAttempts
  createdAt := createdAt
  version := 1

def NotificationAuthorizationError : JsError := .other "Notification operation is not authorized"

def NotificationNotFoundError : JsError := .other "Notification not found"

/-- The id of a notification: derived from its key, or drawn. -/
def notificationId (input : NormalizedNotification τ) : Svc τ String :=
  match keepPresent input.idempotencyKey with
  | some key => pure (service.stableUuid ["notification", input.tenantId, input.recipient, key])
  | none => randomUUID

/-- A created notification is audited; one that was there has to be the tenant's. -/
def confirmCreation (notification : Notification τ) (createdBy : String) (created : Bool) :
    Svc τ Unit :=
  if created then audit "notification.created" notification createdBy none
  else do
    let existing ← storedNotification notification.tenantId notification.id
    if existing.isNone then throw NotificationAuthorizationError else pure ()

/-- `notifyInternal` on normalized input. -/
def notifyInternal (input : NormalizedNotification τ) (createdBy : String)
    (applicationId : Option String) (branch : Nat) : Svc τ Bool := do
  let createdAt ← now
  if input.expiresAt.any fun expiresAt => expiresAt ≤ createdAt then
    throw (.other "expiresAt must be in the future")
  else
    let id ← service.notificationId input
    let notification := notificationRecord input id createdBy applicationId createdAt
    let deliveries := notification.channels.map (service.deliveryRecord notification createdAt)
    let created ← createWithDeliveries notification deliveries
    confirmCreation notification createdBy created
    service.dispatchPending notification.tenantId id branch
    pure created

/-! ## Retrying by hand -/

/-- The update that puts a failed delivery back. -/
def retryUpdate (delivery : NotificationDelivery τ) (t : τ) : NotificationDeliveryUpdate τ where
  status := some .retrying
  maxAttempts := some (delivery.attemptCount + service.maxDeliveryAttempts)
  nextAttemptAt := some (some t)
  failedAt := some none

/-- The attempt `retryDelivery` asks for: by a job, or at once. -/
def attemptAgain (tenantId : String) (retrying : NotificationDelivery τ) (t : τ) : Svc τ Unit :=
  match service.jobs with
  | some jobs => scheduleAttempt jobs retrying t
  | none => do
    let _ ← service.attemptDelivery tenantId retrying.id .manual
    pure ()

/-- `retryDelivery` from the delivery on: a failed one is attempted again. -/
def retryStored (tenantId : String) (item : Notification τ) (principalId : String)
    (delivery : NotificationDelivery τ) : Svc τ (Option (NotificationDelivery τ)) :=
  if delivery.status ≠ .failed then pure (some delivery)
  else do
    let t ← now
    let retrying : Option (NotificationDelivery τ) ←
      (NotificationOp.updateDelivery tenantId delivery.id delivery.version
        (service.retryUpdate delivery t)).perform
    match retrying with
    | none => storedDelivery tenantId delivery.id
    | some retrying => do
      audit "notification.delivery.retrying" item principalId (some retrying)
      service.attemptAgain tenantId retrying t
      storedDelivery tenantId delivery.id

/-- The delivery `retryDelivery` is about. -/
def retryFound (tenantId : String) (item : Notification τ) (channel principalId : String) :
    Svc τ (Option (NotificationDelivery τ)) := do
  let delivery ← storedDelivery tenantId (service.stableUuid ["delivery", item.id, channel])
  match delivery with
  | none => throw NotificationNotFoundError
  | some delivery => service.retryStored tenantId item principalId delivery

/-- A principal of the compatibility rules, with its scopes. -/
structure LegacyPrincipal where
  principalId : String
  tenantId : String
  scopes : List String

/-- `hasScope` of a capability other than `notifications.read`. -/
def LegacyPrincipal.hasScope (principal : LegacyPrincipal) (scope : String) : Bool :=
  principal.scopes.contains "notifications.admin" || principal.scopes.contains scope

/-- `authorizeTenant` and `authorizeOwner`, as `loadOwnedForWrite` makes them. -/
def authorizeWrite (principal : LegacyPrincipal) (tenantId capability : String)
    (item : Notification τ) : Except JsError Unit :=
  if principal.principalId = "" ∨ principal.tenantId = "" ∨ principal.tenantId ≠ tenantId ∨
      principal.hasScope capability = false then .error NotificationAuthorizationError
  else if item.tenantId ≠ principal.tenantId then .error NotificationAuthorizationError
  else if item.recipient ≠ principal.principalId ∧
      principal.hasScope "notifications.admin" = false then .error NotificationAuthorizationError
  else .ok ()

/-- `retryDelivery`; `legacy` is the caller as the compatibility rules see it. -/
def retryDelivery (tenantId id channel : String) (caller : PrincipalInput)
    (legacy : LegacyPrincipal) : Svc τ (Option (NotificationDelivery τ)) :=
  match service.authority with
  | some gateway => do
    let principal ← requireVerifiedPrincipal caller
    let tenant ← check (resolveTenant (some tenantId) principal)
    let item ← storedNotification tenant id
    match item with
    | none => throw NotificationNotFoundError
    | some item =>
      if item.applicationId ≠ some gateway.application then throw NotificationNotFoundError
      else
        gateway.execute "notifications.update" (.of principal)
          { type := "notification", tenantId := item.tenantId, id := some item.id
            attributes := [("recipient", item.recipient)] }
          { service := "notifications" }
          fun _ _ => service.retryFound tenant item channel principal.principalId
  | none => do
    let item ← storedNotification tenantId id
    match item with
    | none => throw NotificationNotFoundError
    | some item => do
      check (authorizeWrite legacy tenantId "notifications.admin" item)
      service.retryFound tenantId item channel legacy.principalId

/-! ## Deletion -/

/-- `delete` of a notification that was found: its deliveries, then the notification. The
deletes of `Promise.all` are made one after the other. -/
def deleteFound (item : Notification τ) (id principalId : String) : Svc τ Unit := do
  let deliveries : List (NotificationDelivery τ) ←
    (NotificationOp.listDeliveries item.tenantId (some item.id)).perform
  Task.forEach (fun delivery : NotificationDelivery τ =>
    (NotificationOp.deleteDelivery delivery.id).perform) deliveries
  (NotificationOp.deleteNotification id).perform
  audit "notification.deleted" item principalId none

/-- `delete`. -/
def delete (tenantId id : String) (caller : PrincipalInput) (legacy : LegacyPrincipal) :
    Svc τ Unit :=
  match service.authority with
  | some gateway => do
    let principal ← requireVerifiedPrincipal caller
    let tenant ← check (resolveTenant (some tenantId) principal)
    let item ← storedNotification tenant id
    match item with
    | none => pure ()
    | some item =>
      if item.applicationId ≠ some gateway.application then pure ()
      else
        gateway.execute "notifications.delete" (.of principal)
          { type := "notification", tenantId := item.tenantId, id := some item.id
            attributes := [("recipient", item.recipient)] }
          { service := "notifications" }
          fun _ _ => deleteFound item id principal.principalId
  | none => do
    let item ← storedNotification tenantId id
    match item with
    | none => pure ()
    | some item => do
      check (authorizeWrite legacy tenantId "notifications.delete" item)
      deleteFound item id legacy.principalId

/-! ## Expiry, and the changes of the recipient -/

/-- `transitionNotification`, with a change that reads the clock. -/
def transitionAtClock (tenantId id : String)
    (change : Notification τ → Svc τ (Option (NotificationUpdate τ))) (type : String) :
    Nat → Svc τ Unit
  | 0 => pure ()
  | attempts + 1 => do
    let item ← storedNotification tenantId id
    match item with
    | none => pure ()
    | some item => do
      let updates ← change item
      match updates with
      | none => pure ()
      | some updates => do
        let updated : Option (Notification τ) ←
          (NotificationOp.updateNotification item.id item.version updates).perform
        match updated with
        | some updated => audit type updated "system" none
        | none => transitionAtClock tenantId id change type attempts

/-- The change of `materialize`. -/
def expiryChange (current : Notification τ) : Svc τ (Option (NotificationUpdate τ)) :=
  match current.expiresAt with
  | none => pure none
  | some expiresAt => do
    let t ← now
    if expiresAt ≤ t ∧ canExpire current then do
      let t' ← now
      pure (some { status := some .expired, expiredAt := some (some t') })
    else pure none

/-- `materialize`: a notification that has expired is stored as expired. -/
def materialize (item : Notification τ) : Svc τ (Notification τ) :=
  match item.expiresAt with
  | none => view item
  | some expiresAt => do
    let t ← now
    if expiresAt ≤ t ∧ canExpire item then do
      transitionAtClock item.tenantId item.id expiryChange "notification.expired" TRANSITION_ATTEMPTS
      let stored ← storedNotification item.tenantId item.id
      view (stored.getD item)
    else view item

inductive MutateType where
  | read
  | acknowledged
  | dismissed
  deriving DecidableEq, Repr

def MutateType.auditType : MutateType → String
  | .read => "notification.read"
  | .acknowledged => "notification.acknowledged"
  | .dismissed => "notification.dismissed"

/-- The changes of `markRead`, `acknowledge` and `dismiss`. -/
def MutateType.change : MutateType → Notification τ → τ → Option (NotificationUpdate τ)
  | .read, item, now =>
    if item.readAt.isSome then none
    else some {
      readAt := some (some now)
      status := if item.status = .acknowledged then none else some .read }
  | .acknowledged, item, now =>
    if item.acknowledgedAt.isSome then none
    else some {
      acknowledgedAt := some (some now), readAt := some (some (item.readAt.getD now))
      status := some .acknowledged }
  | .dismissed, item, now =>
    if item.dismissedAt.isSome then none else some { dismissedAt := some (some now) }

/-- The loop of `mutate`: read, change under the version, again on a conflict. -/
def mutateStored (type : MutateType) (tenantId id principalId : String)
    (authorize : Notification τ → Except JsError Unit) : Nat → Svc τ (Notification τ)
  | 0 => throw (.other "Notification was modified concurrently")
  | attempts + 1 => do
    let item ← storedNotification tenantId id
    match item with
    | none => throw NotificationNotFoundError
    | some item => do
      check (authorize item)
      let t ← now
      match type.change item t with
      | none => materialize item
      | some updates => do
        let updated : Option (Notification τ) ←
          (NotificationOp.updateNotification item.id item.version updates).perform
        match updated with
        | some updated => do
          audit type.auditType updated principalId none
          materialize updated
        | none => mutateStored type tenantId id principalId authorize attempts

/-- `authorizeTenant`. -/
def authorizeTenant (principal : LegacyPrincipal) (tenantId scope : String) : Except JsError Unit :=
  if principal.principalId = "" ∨ principal.tenantId = "" ∨ principal.tenantId ≠ tenantId ∨
      principal.hasScope scope = false then .error NotificationAuthorizationError
  else .ok ()

/-- `authorizeOwner`. -/
def authorizeOwner (principal : LegacyPrincipal) (item : Notification τ) : Except JsError Unit :=
  if item.tenantId ≠ principal.tenantId then .error NotificationAuthorizationError
  else if item.recipient ≠ principal.principalId ∧
      principal.hasScope "notifications.admin" = false then .error NotificationAuthorizationError
  else .ok ()

/-- `mutate`. -/
def mutate (type : MutateType) (tenantId id : String) (caller : PrincipalInput)
    (legacy : LegacyPrincipal) : Svc τ (Notification τ) :=
  match service.authority with
  | some gateway => do
    let principal ← requireVerifiedPrincipal caller
    let tenant ← check (resolveTenant (some tenantId) principal)
    let item ← storedNotification tenant id
    match item with
    | none => throw NotificationNotFoundError
    | some item =>
      if item.applicationId ≠ some gateway.application then throw NotificationNotFoundError
      else
        gateway.execute "notifications.update" (.of principal)
          { type := "notification", tenantId := item.tenantId, id := some item.id
            attributes := [("recipient", item.recipient)] }
          { service := "notifications" }
          fun _ _ => mutateStored type item.tenantId item.id principal.principalId
            (fun _ => .ok ()) TRANSITION_ATTEMPTS
  | none => do
    check (authorizeTenant legacy tenantId "notifications.write")
    mutateStored type tenantId id legacy.principalId (authorizeOwner legacy) TRANSITION_ATTEMPTS

/-- `markRead`. -/
def markRead := service.mutate .read

/-- `acknowledge`. -/
def acknowledge := service.mutate .acknowledged

/-- `dismiss`. -/
def dismiss := service.mutate .dismissed

/-- `authorizeTenant` and `authorizeRead`, as `loadReadable` makes them; who reads any
notification reads. -/
def authorizeReading (principal : LegacyPrincipal) (tenantId : String) (item : Notification τ) :
    Except JsError Unit :=
  if principal.principalId = "" ∨ principal.tenantId = "" ∨ principal.tenantId ≠ tenantId ∨
      (principal.hasScope "notifications.read" || principal.hasScope "notifications.read:any") =
        false then .error NotificationAuthorizationError
  else if item.tenantId ≠ principal.tenantId then .error NotificationAuthorizationError
  else if item.recipient ≠ principal.principalId ∧
      principal.hasScope "notifications.read:any" = false then .error NotificationAuthorizationError
  else .ok ()

/-- `get`: what is read has expired, if it is time. -/
def get (tenantId id : String) (caller : PrincipalInput) (legacy : LegacyPrincipal) :
    Svc τ (Notification τ) := do
  let item ← storedNotification tenantId id
  match item with
  | none => throw NotificationNotFoundError
  | some item =>
    match service.authority with
    | some gateway =>
      if item.applicationId ≠ some gateway.application then throw NotificationNotFoundError
      else do
        let principal ← requireVerifiedPrincipal caller
        let tenant ← check (resolveTenant (some tenantId) principal)
        gateway.execute "notifications.read" (.of principal)
          { type := "notification", tenantId := tenant, id := some item.id
            attributes := [("recipient", item.recipient)] }
          { service := "notifications" } fun _ _ => pure ()
        materialize item
    | none => do
      check (authorizeReading legacy tenantId item)
      materialize item

end NotificationService

end AppPort
