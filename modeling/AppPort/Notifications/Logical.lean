import AppPort.Lib.Trace
import AppPort.Notifications.Identity
import AppPort.Notifications.Protocol
import AppPort.Notifications.Writes

/-!
# Logical notifications — many applications over one store

`notify` of any number of applications that share a store, in any interleaving, each call
with a verified principal and a key. What a call may write, dispatch and return is stated
about the calls it made before: it commits the notification of its own identity, and works
on deliveries that it found under the id of that identity.
-/

namespace AppPort

open Effects Effects.Platform NotificationService

variable {τ : Type}

/-! ## The platform -/

/-- A call of `notify` by the application of a gateway, with a key. -/
structure LogicalCall (τ : Type) where
  service : NotificationService τ
  gateway : ServiceGateway
  defaults : NotificationDefaults := {}
  input : CreateNotificationInput
  caller : PrincipalInput
  legacy : LegacyPrincipal := ⟨"", "", []⟩
  /-- The delivery this call goes on with. -/
  branch : Nat := 0
  keyed : input.logicalKey.isSome = true

/-- What the id of a notification is derived from. -/
structure LogicalIdentity where
  tenantId : String
  recipient : String
  key : String
  deriving DecidableEq, Repr

def LogicalIdentity.parts (identity : LogicalIdentity) : List String :=
  ["notification", identity.tenantId, identity.recipient, identity.key]

def LogicalIdentity.id (sha256 : String → String) (identity : LogicalIdentity) : String :=
  stableUuid sha256 identity.parts

namespace LogicalCall

variable (call : LogicalCall τ)

/-- The service of the call: its application's, with ids from the digest. -/
def configured (sha256 : String → String) : NotificationService τ :=
  { call.service with authority := some call.gateway, stableUuid := stableUuid sha256 }

/-- The application the notification is recorded for. -/
def application : Option String := keepPresent (some call.gateway.application)

/-- The identity of the notification: a call without a principal has none. -/
def identity : Option LogicalIdentity :=
  match call.caller with
  | .object p _ => call.input.logicalKey.map fun key => ⟨p.tenantId, call.input.recipient, key⟩
  | _ => none

def channels : List String := distinct (call.input.requested call.defaults)

end LogicalCall

section platform

variable [Timestamp τ]

def logicalBody (sha256 : String → String) (call : LogicalCall τ) : Svc τ (NotificationResult τ) :=
  (call.configured sha256).notify call.defaults call.input call.caller call.legacy call.branch

abbrev logicalPlatform (τ : Type) [Timestamp τ] (sha256 : String → String) : Platform :=
  appPlatform (logicalBody (τ := τ) sha256) deliveryEnv

end platform

/-! ## What is claimed -/

/-- The notification as it was created: what later writes change is as it was. -/
def Notification.asCreated (item : Notification τ) : Notification τ :=
  { item with status := .pending, deliveredAt := none, failedAt := none, expiredAt := none
              readAt := none, acknowledgedAt := none, dismissedAt := none, version := 1 }

section claimed

variable [Timestamp τ] {sha256 : String → String}

/-- The notification an event creates, and the call that does. -/
def creation : (logicalPlatform τ sha256).Event → Option (LogicalCall τ × Notification τ)
  | .ran _ ⟨call, .notifications (.commitNotification item _), _, before, after⟩ =>
    if (before.notifications.notifications.get item.id).isNone &&
      (after.notifications.notifications.get item.id).isSome then some (call, item) else none
  | _ => none

/-- The notifications that were created. -/
def creations (past : (logicalPlatform τ sha256).History) : List (LogicalCall τ × Notification τ) :=
  past.filterMap creation

/-- The delivery a step dispatches: it is handed to its channel, or to a job. -/
def dispatched (step : (logicalPlatform τ sha256).Step) : Option String :=
  match step.op with
  | .host (.startChannel _ claimed) => some claimed.id
  | .jobs (.create job) =>
    if job.type = NOTIFICATION_DELIVERY_JOB then (job.payload.prop "deliveryId").text? else none
  | _ => none

/-- The delivery that is stored under the id, if any, is of a notification of the application. -/
def deliveryOf (application : Option String) (w : World τ) (id : String) : Bool :=
  (w.notifications.deliveries.get id).any fun delivery =>
    (w.notifications.notifications.get delivery.notificationId).any fun item =>
      item.applicationId == application

/-- What is dispatched is of the application of the call. -/
def dispatchesOwn (_ : (logicalPlatform τ sha256).History) :
    (logicalPlatform τ sha256).Event → Bool
  | .ran _ step => (dispatched step).all fun id => deliveryOf step.call.application step.before id
  | .stopped _ _ => true

/-- What stands in the way of a creation is of the application of the call. -/
def meetsOwn (_ : (logicalPlatform τ sha256).History) : (logicalPlatform τ sha256).Event → Bool
  | .ran _ ⟨call, .notifications (.commitNotification item deliveries), _, before, _⟩ =>
    (before.notifications.notifications.get item.id).all
      (fun stored => stored.applicationId == call.application) &&
    deliveries.all fun delivery => (before.notifications.deliveries.get delivery.id).isNone ||
      deliveryOf call.application before delivery.id
  | _ => true

/-- The call returned this result. -/
def Returned (c : (logicalPlatform τ sha256).Config) (call : LogicalCall τ)
    (result : NotificationResult τ) : Prop :=
  ∃ pid, c.proc pid = some ⟨call, .settled (.ok result)⟩

/-- One notification for one identity, with one delivery for each channel of the call that
created it. -/
structure LogicallyOne (c : (logicalPlatform τ sha256).Config) : Prop where
  /-- No notification is created twice. -/
  once : ((creations c.past).map fun made => made.2.id).Nodup
  /-- A call returns the notification that the first call of its application with its
  identity created, and that one's deliveries. -/
  returned : ∀ call result, Returned c call result →
    ∃ made ∈ creations c.past, made.1.identity = call.identity ∧
      made.1.application = call.application ∧ made.2.channels = made.1.channels ∧
      result.notification.asCreated = made.2 ∧
      (result.deliveries.map NotificationDelivery.channel).Perm made.1.channels
  /-- Two calls with one identity return one notification. -/
  same : ∀ call result call' result', Returned c call result → Returned c call' result' →
    call.application = call'.application → call.identity = call'.identity →
    result.notification.asCreated = result'.notification.asCreated
  /-- What was created has one delivery for each channel, however often it is notified. -/
  deliveries : ∀ made ∈ creations c.past,
    ((c.world.notifications.deliveries.find fun d => d.tenantId == made.2.tenantId &&
      d.notificationId == made.2.id).map NotificationDelivery.channel).Perm made.1.channels

/-- No call returns or dispatches a notification of another application, or finds its own
blocked by one. -/
structure WithinApplication (c : (logicalPlatform τ sha256).Config) : Prop where
  returns : ∀ call result, Returned c call result →
    result.notification.applicationId = call.application ∧
      ∀ delivery ∈ result.deliveries, delivery.notificationId = result.notification.id
  dispatches : Always dispatchesOwn c.past
  blocks : Always meetsOwn c.past

/-! ## The condition -/

/-- Calls with one identity are of one application. -/
def ApplicationsApart (calls : List (LogicalCall τ)) : Prop :=
  ∀ a ∈ calls, ∀ b ∈ calls, a.identity.isSome = true → a.identity = b.identity →
    a.application = b.application

/-- No delivery that is stored is deleted: `createWithDeliveries` does so to what it takes
for an orphan after its transaction failed. -/
def deletesNothing (_ : (logicalPlatform τ sha256).History) :
    (logicalPlatform τ sha256).Event → Bool
  | .ran _ ⟨_, .notifications (.deleteDelivery id), _, before, _⟩ =>
    (before.notifications.deliveries.get id).isNone
  | _ => true

/-- The texts the ids of these calls are digests of. -/
def hashedTexts (sha256 : String → String) (calls : List (LogicalCall τ)) : List String :=
  calls.flatMap fun call => match call.identity with
    | none => []
    | some identity => jsonTexts identity.parts ::
      call.channels.map fun channel => jsonTexts ["delivery", identity.id sha256, channel]

end claimed

/-! ## What a process may do -/

section discipline

variable [Timestamp τ] {sha256 : String → String}

/-- A delivery the process came by under this notification id: listed, read again, or
answered to an update. -/
inductive Reached (own : List (logicalPlatform τ sha256).Step) (id : String) :
    NotificationDelivery τ → Prop where
  | listed {tenantId : String} {deliveries : List (NotificationDelivery τ)}
    {delivery : NotificationDelivery τ}
    (h : Answered own (.notifications (.listDeliveries tenantId (some id))) (.ok deliveries))
    (hd : delivery ∈ deliveries) : Reached own id delivery
  | fetched {delivery delivery' : NotificationDelivery τ} (hd : Reached own id delivery)
    (h : Answered own (.notifications (.getDelivery delivery.id)) (.ok (some delivery'))) :
    Reached own id delivery'
  | updated {tenantId : String} {v : Nat} {u : NotificationDeliveryUpdate τ}
    {delivery delivery' : NotificationDelivery τ} (hd : Reached own id delivery)
    (h : Answered own (.notifications (.updateDelivery tenantId delivery.id v u))
      (.ok (some delivery'))) : Reached own id delivery'

theorem Reached.mono {own own' : List (logicalPlatform τ sha256).Step} {id : String}
    {delivery : NotificationDelivery τ} (h : Reached own id delivery) (hs : own <:+ own') :
    Reached own' id delivery := by
  induction h with
  | listed h hd => exact .listed (h.mono hs) hd
  | fetched _ h ih => exact .fetched ih (h.mono hs)
  | updated _ h ih => exact .updated ih (h.mono hs)

/-- The notification of the identity, the application and the channels of a call. -/
structure MadeBy (sha256 : String → String) (call : LogicalCall τ) (item : Notification τ) :
    Prop where
  identity : ∃ identity, call.identity = some identity ∧ item.id = identity.id sha256 ∧
    item.tenantId = identity.tenantId
  fresh : item.asCreated = item
  application : item.applicationId = call.application
  channels : item.channels = call.channels

/-- What a call commits: its notification, with a delivery for each channel. -/
structure Written (sha256 : String → String) (call : LogicalCall τ) (item : Notification τ)
    (deliveries : List (NotificationDelivery τ)) : Prop extends MadeBy sha256 call item where
  deliveries : ∃ createdAt,
    deliveries = item.channels.map ((call.configured sha256).deliveryRecord item createdAt)

/-- What a process may do next, given what it did. -/
structure LogicalAllowed (own : List (logicalPlatform τ sha256).Step)
    (step : (logicalPlatform τ sha256).Step) : Prop where
  commits : ∀ item deliveries, step.op = .notifications (.commitNotification item deliveries) →
    Written sha256 step.call item deliveries
  keeps : ∀ id, step.op ≠ .notifications (.deleteNotification id)
  queues : ∀ operations, step.op ≠ .commit operations
  starts : ∀ viewed claimed, step.op = .host (.startChannel viewed claimed) →
    ∃ identity, step.call.identity = some identity ∧ Reached own (identity.id sha256) claimed
  schedules : ∀ job, step.op = .jobs (.create job) → job.type = NOTIFICATION_DELIVERY_JOB →
    ∃ identity delivery, step.call.identity = some identity ∧
      Reached own (identity.id sha256) delivery ∧
      job.payload = .obj [("deliveryId", .str delivery.id)]

/-- A call returns a notification it read under its own id, and the deliveries it listed
there next. -/
def LogicalSettled (call : LogicalCall τ) (r : Except JsError (NotificationResult τ))
    (own : List (logicalPlatform τ sha256).Step) : Prop :=
  ∀ result, r = .ok result → ∃ (identity : LogicalIdentity) (item stored : Notification τ)
      (own' : List (logicalPlatform τ sha256).Step) (before after : World τ),
    call.identity = some identity ∧
    Answered own' (.notifications (.getNotification (identity.id sha256))) (.ok (some item)) ∧
    ⟨call, AppOp.notifications (.listDeliveries identity.tenantId (some (identity.id sha256))),
      .ok result.deliveries, before, after⟩ :: own' <:+ own ∧
    (stored = item ∨ Answered own (.notifications (.getNotification item.id)) (.ok (some stored))) ∧
    result.notification.asCreated = stored.asCreated

theorem LogicalSettled.mono {call : LogicalCall τ} {r : Except JsError (NotificationResult τ)}
    {own own' : List (logicalPlatform τ sha256).Step} (h : LogicalSettled call r own)
    (hs : own <:+ own') : LogicalSettled call r own' := by
  intro result hr
  obtain ⟨identity, item, stored, own₁, before, after, hcall, hitem, hlisted, hstored, hsame⟩ :=
    h result hr
  exact ⟨identity, item, stored, own₁, before, after, hcall, hitem, hlisted.trans hs,
    hstored.imp_right fun h => h.mono hs, hsame⟩

/-- Every process by the calls it made before. -/
abbrev logicalTraces (τ : Type) [Timestamp τ] (sha256 : String → String) :
    Discipline (logicalPlatform τ sha256) :=
  traced LogicalAllowed LogicalSettled

end discipline

/-! ## Conformance -/

section conformance

variable [Timestamp τ] {sha256 : String → String} {call : LogicalCall τ} {α : Type}
  {own : List (logicalPlatform τ sha256).Step}

/-- Calls that write no notification, dispatch nothing and queue nothing. -/
def AppOp.staysAside : AppOp τ → Bool
  | .notifications (.commitNotification ..) | .notifications (.deleteNotification _)
  | .host (.startChannel ..) | .commit _ => false
  | .jobs (.create job) => job.type != NOTIFICATION_DELIVERY_JOB
  | _ => true

/-- They are always allowed. -/
theorem allowed_aside (op : AppOp τ) (h : op.staysAside = true)
    (own : List (logicalPlatform τ sha256).Step) (call : LogicalCall τ)
    (res : Except JsError (op.Out τ)) (before after : World τ) :
    LogicalAllowed own ⟨call, op, res, before, after⟩ where
  commits item deliveries hop := by
    subst hop
    cases h
  keeps id hop := by
    subst hop
    cases h
  queues operations hop := by
    subst hop
    cases h
  starts viewed claimed hop := by
    subst hop
    cases h
  schedules job hop htype := by
    subst hop
    simp [AppOp.staysAside, htype] at h

theorem grows_call (op : AppOp τ) (h : op.staysAside = true) :
    Traced.Grows LogicalAllowed LogicalSettled call (Task.perform (S := services τ) op) own
      (fun res own' => Answered own' op res) :=
  Traced.Grows.perform fun res before after => allowed_aside op h own call res before after

def asideOf (τ : Type) : Set (AppOp τ) := {op | op.staysAside = true}

omit [Timestamp τ] in
theorem authority_aside : (authorityCalls : Set (AppOp τ)) ⊆ asideOf τ := by
  rintro op ⟨o, rfl⟩
  rfl

theorem allowed_authority : AllowsAuthority (@LogicalAllowed τ _ sha256) :=
  fun own call op => allowed_aside (.authority op) rfl own call

omit [Timestamp τ] in
theorem aside_working : NotificationWorking (asideOf τ) where
  authority := authority_aside
  audit _ := rfl
  schedules _ _ := rfl
  read _ := rfl
  list _ _ := rfl
  update _ _ _ := rfl

abbrev GrowsLogical (call : LogicalCall τ) (t : Svc τ α)
    (own : List (logicalPlatform τ sha256).Step)
    (Q : Except JsError α → List (logicalPlatform τ sha256).Step → Prop) : Prop :=
  Traced.Grows LogicalAllowed LogicalSettled call t own Q

theorem grows_aside {t : Svc τ α} (ht : Task.Uses (S := services τ) (asideOf τ) t) :
    GrowsLogical call t own (fun _ _ => True) :=
  Traced.Grows.of_uses (fun op hop own => allowed_aside op hop own call) ht

/-- The task keeps to the discipline, whatever it answers. -/
abbrev GrowsOnly (call : LogicalCall τ) (t : Svc τ α)
    (own : List (logicalPlatform τ sha256).Step) : Prop :=
  GrowsLogical call t own (fun _ _ => True)

theorem GrowsOnly.bind {β : Type} {t : Svc τ α} {f : α → Svc τ β}
    {Q : Except JsError α → List (logicalPlatform τ sha256).Step → Prop}
    (ht : GrowsLogical call t own Q)
    (hf : ∀ a own', own <:+ own' → Q (.ok a) own' → GrowsOnly call (f a) own') :
    GrowsOnly call (t.bind f) own :=
  Traced.Grows.bind ht hf (fun _ _ _ _ => trivial)

theorem growsOnly_pure (a : α) : GrowsOnly call (pure a) own := Traced.Grows.settled trivial

/-! ### Reading -/

/-- What is read is answered under its id. -/
theorem grows_storedNotification (tenantId id : String) :
    GrowsLogical call (storedNotification (τ := τ) tenantId id) own (fun r own' =>
      ∀ item, r = .ok (some item) →
        Answered own' (.notifications (.getNotification id)) (.ok (some item))) := by
  unfold storedNotification
  refine Traced.Grows.bind (grows_call (.notifications (.getNotification id)) rfl) ?_
    (fun e _ _ _ item h => by cases h)
  intro found own' _ hfound
  refine Traced.Grows.settled fun item h => ?_
  have hfilter := Except.ok.inj h
  rw [(Option.filter_eq_some_iff.mp hfilter).1] at hfound
  exact hfound

theorem grows_storedDelivery (tenantId id : String) :
    GrowsLogical call (storedDelivery (τ := τ) tenantId id) own (fun r own' =>
      ∀ delivery, r = .ok (some delivery) →
        Answered own' (.notifications (.getDelivery id)) (.ok (some delivery))) := by
  unfold storedDelivery
  refine Traced.Grows.bind (grows_call (.notifications (.getDelivery id)) rfl) ?_
    (fun e _ _ _ item h => by cases h)
  intro found own' _ hfound
  refine Traced.Grows.settled fun item h => ?_
  have hfilter := Except.ok.inj h
  rw [(Option.filter_eq_some_iff.mp hfilter).1] at hfound
  exact hfound

/-! ### Attempts -/

section attempts

variable {service : NotificationService τ} {identity : LogicalIdentity}
  (hcall : call.identity = some identity)

include hcall

/-- A job may be scheduled for a delivery that was reached. -/
theorem grows_scheduling {delivery : NotificationDelivery τ} {t : Svc τ α}
    (hd : Reached own (identity.id sha256) delivery)
    (ht : ∀ calls : Set (AppOp τ), NotificationWorking calls →
      (∀ job : Job τ, job.type = NOTIFICATION_DELIVERY_JOB →
        job.payload = .obj [("deliveryId", .str delivery.id)] → .jobs (.create job) ∈ calls) →
      Task.Uses (S := services τ) calls t) : GrowsOnly call t own := by
  let calls : Set (AppOp τ) := {op | op.staysAside = true ∨ ∃ job : Job τ, op = .jobs (.create job) ∧
    job.payload = .obj [("deliveryId", .str delivery.id)]}
  have hworking : NotificationWorking calls :=
    { authority := fun op hop => .inl (authority_aside hop)
      audit := fun _ => .inl rfl
      schedules := fun _ _ => .inl rfl
      read := fun _ => .inl rfl
      list := fun _ _ => .inl rfl
      update := fun _ _ _ => .inl rfl }
  refine Traced.Grows.of_uses_from ?_ (ht calls hworking fun job _ hpayload => .inr ⟨job, rfl, hpayload⟩)
  rintro op hop own' hs res before after
  rcases hop with hop | ⟨job, rfl, hpayload⟩
  · exact allowed_aside op hop own' call res before after
  · refine ⟨fun _ _ h => (by cases h), fun _ h => (by cases h), fun _ h => (by cases h),
      fun _ _ h => (by cases h), fun job' h _ => ?_⟩
    cases h
    exact ⟨identity, delivery, hcall, hd.mono hs, hpayload⟩

/-- The outcome of an attempt is written to the delivery that was reached. -/
theorem grows_finishDelivery {delivery : NotificationDelivery τ}
    (hd : Reached own (identity.id sha256) delivery) (notification : Option (Notification τ))
    (result : NotificationDeliveryResult) :
    GrowsOnly call (service.finishDelivery delivery notification result) own := by
  unfold NotificationService.finishDelivery
  refine GrowsOnly.bind (grows_aside (aside_working.uses uses_now)) fun t own₁ hs₁ _ => ?_
  refine GrowsOnly.bind (grows_aside
    (service.uses_settlementUpdate aside_working.toNotificationAmbient delivery t result))
    fun u own₂ hs₂ _ => ?_
  refine GrowsOnly.bind (grows_call (.notifications (.updateDelivery ..)) rfl)
    fun updated own₃ hs₃ hupdated => ?_
  have hd₃ := hd.mono (hs₁.trans (hs₂.trans hs₃))
  cases updated with
  | none => exact Traced.Grows.mono (grows_storedDelivery _ _) (fun _ _ _ _ => trivial)
  | some updated =>
    exact grows_scheduling hcall (Reached.updated hd₃ hupdated) fun calls hworking hcreate =>
      uses_afterSettlement hworking service notification u.2 updated hcreate

theorem grows_deliver {claimed : NotificationDelivery τ}
    (hd : Reached own (identity.id sha256) claimed) (notification : Notification τ) :
    GrowsOnly call (NotificationService.deliver notification claimed) own := by
  unfold NotificationService.deliver
  refine Traced.Grows.tryCatch (Q := fun _ _ => True) ?_ (fun _ _ _ _ => trivial)
    (fun _ _ _ _ => growsOnly_pure _)
  refine GrowsOnly.bind (grows_aside ((uses_view notification).mono authority_aside))
    fun viewed own₁ hs₁ _ => ?_
  refine GrowsOnly.bind (Traced.Grows.perform fun res before after => ?_) fun _ own₂ _ _ => ?_
  · refine ⟨fun _ _ h => (by cases h), fun _ h => (by cases h), fun _ h => (by cases h),
      fun viewed' claimed' h => ?_, fun _ h => (by cases h)⟩
    cases h
    exact ⟨identity, hcall, hd.mono hs₁⟩
  · exact grows_aside (Task.uses_perform rfl)

theorem grows_claimAndDeliver {delivery : NotificationDelivery τ}
    (hd : Reached own (identity.id sha256) delivery) (tenantId : String)
    (notification : Notification τ) (t : τ) :
    GrowsOnly call (service.claimAndDeliver tenantId delivery notification t) own := by
  unfold NotificationService.claimAndDeliver
  refine GrowsOnly.bind (grows_call (.notifications (.updateDelivery ..)) rfl)
    fun claimed own₁ hs₁ hclaimed => ?_
  cases claimed with
  | none => exact Traced.Grows.mono (grows_storedDelivery _ _) (fun _ _ _ _ => trivial)
  | some claimed =>
    have hd₁ := Reached.updated (hd.mono hs₁) hclaimed
    refine GrowsOnly.bind (grows_deliver hcall hd₁ notification) fun result own₂ hs₂ _ => ?_
    exact grows_finishDelivery hcall (hd₁.mono hs₂) (some notification) result

theorem grows_attemptUnleased {delivery : NotificationDelivery τ}
    (hd : Reached own (identity.id sha256) delivery) (tenantId : String) (t : τ) :
    GrowsOnly call (service.attemptUnleased tenantId delivery t) own := by
  unfold NotificationService.attemptUnleased
  refine GrowsOnly.bind (grows_aside
    (aside_working.uses_storedNotification tenantId delivery.notificationId)) fun item own₁ hs₁ _ => ?_
  have hd₁ := hd.mono hs₁
  cases item with
  | none => exact grows_finishDelivery hcall hd₁ none _
  | some item =>
    dsimp only
    split
    · refine GrowsOnly.bind (grows_finishDelivery hcall hd₁ (some item) _) fun _ own₂ _ _ => ?_
      exact GrowsOnly.bind (grows_aside (uses_transitionNotification aside_working ..))
        fun _ _ _ _ => growsOnly_pure _
    split
    · exact grows_finishDelivery hcall hd₁ (some item) _
    · exact grows_claimAndDeliver hcall hd₁ tenantId item t

/-- An attempt on a delivery that was reached. -/
theorem grows_attemptDelivery {delivery : NotificationDelivery τ}
    (hd : Reached own (identity.id sha256) delivery) (tenantId : String) (mode : AttemptMode) :
    GrowsOnly call (service.attemptDelivery tenantId delivery.id mode) own := by
  unfold NotificationService.attemptDelivery
  refine GrowsOnly.bind (grows_storedDelivery tenantId delivery.id) fun found own₁ hs₁ hfound => ?_
  cases found with
  | none => exact growsOnly_pure _
  | some found =>
    have hd₁ := Reached.fetched (hd.mono hs₁) (hfound found rfl)
    dsimp only
    split
    · exact growsOnly_pure _
    refine GrowsOnly.bind (grows_aside (aside_working.uses uses_now)) fun t own₂ hs₂ _ => ?_
    refine GrowsOnly.bind (Traced.Grows.settled (Q := fun _ own' => own' = own₂) rfl) ?_
    rintro cutoff own₃ - rfl
    split
    · exact growsOnly_pure _
    · exact grows_attemptUnleased hcall (hd₁.mono hs₂) tenantId t

theorem grows_dispatch {delivery : NotificationDelivery τ}
    (hd : Reached own (identity.id sha256) delivery) :
    GrowsOnly call (service.dispatch delivery) own := by
  unfold NotificationService.dispatch
  split
  · refine GrowsOnly.bind (grows_aside (aside_working.uses uses_now)) fun t own₁ hs₁ _ => ?_
    exact grows_scheduling hcall (hd.mono hs₁) fun calls hworking hcreate =>
      uses_scheduleAttempt hworking.toNotificationAmbient _ _ _ hcreate
  · exact Traced.Grows.settleWith (grows_attemptDelivery hcall hd _ _)
      fun _ _ _ _ => growsOnly_pure _

theorem grows_dispatchPending (tenantId : String) (branch : Nat) :
    GrowsOnly call (service.dispatchPending tenantId (identity.id sha256) branch) own := by
  unfold NotificationService.dispatchPending
  refine GrowsOnly.bind (grows_call (.notifications (.listDeliveries ..)) rfl)
    fun deliveries own₁ hs₁ hlisted => ?_
  dsimp only
  split
  · exact growsOnly_pure _
  · next delivery hbranch =>
    have hmem := List.mem_filter.mp (List.mem_of_getElem? hbranch)
    exact grows_dispatch hcall (Reached.listed hlisted hmem.1)

end attempts

/-! ### Creation -/

/-- Whatever way the transaction goes, what is committed is the notification of the call. -/
theorem grows_createWithDeliveries {item : Notification τ}
    {deliveries : List (NotificationDelivery τ)} (hw : Written sha256 call item deliveries) :
    GrowsOnly call (createWithDeliveries item deliveries) own := by
  have hcommit : ∀ own : List (logicalPlatform τ sha256).Step, GrowsOnly call
      ((NotificationOp.commitNotification item deliveries).perform.bind fun _ => pure true) own := by
    intro own
    refine GrowsOnly.bind (Traced.Grows.perform fun res before after => ?_)
      fun _ _ _ _ => growsOnly_pure _
    refine ⟨fun item' deliveries' h => ?_, fun _ h => (by cases h), fun _ h => (by cases h),
      fun _ _ h => (by cases h), fun _ h => (by cases h)⟩
    cases h
    exact hw
  unfold createWithDeliveries
  refine Traced.Grows.tryCatch (hcommit own) (fun _ _ _ _ => trivial) ?_
  intro error own₁ _ _
  refine GrowsOnly.bind (grows_call (.notifications (.getNotification item.id)) rfl)
    fun existing own₂ _ _ => ?_
  split
  · exact growsOnly_pure _
  refine GrowsOnly.bind (grows_aside (uses_orphanedDeliveries (fun _ => rfl) deliveries)) fun staleIds own₃ _ _ => ?_
  split
  · exact Traced.Grows.settled trivial
  refine GrowsOnly.bind (grows_aside (Task.Uses.forEach staleIds fun id _ => Task.uses_perform rfl))
    fun _ own₄ _ _ => ?_
  exact hcommit own₄

/-! ### The answer -/

/-- What the notification says besides its status is what was read. -/
theorem grows_view (item : Notification τ) :
    GrowsLogical call (NotificationService.view item) own (fun r _ =>
      ∀ viewed, r = .ok viewed → viewed.asCreated = item.asCreated) := by
  unfold NotificationService.view
  split
  · refine Traced.Grows.settled fun viewed h => ?_
    obtain rfl := Except.ok.inj h
    rfl
  · refine Traced.Grows.bind (grows_aside (aside_working.uses uses_now)) ?_
      (fun e _ _ _ viewed h => by cases h)
    intro t own' _ _
    refine Traced.Grows.settled fun viewed h => ?_
    obtain rfl := Except.ok.inj h
    split <;> rfl

theorem uses_expiryChange (item : Notification τ) :
    Task.Uses (S := services τ) (asideOf τ) (expiryChange item) := by
  unfold expiryChange
  split
  · trivial
  · refine Task.Uses.bind (aside_working.uses uses_now) fun t => ?_
    split
    · exact Task.Uses.bind (aside_working.uses uses_now) fun _ => trivial
    · trivial

theorem grows_materialize (item : Notification τ) :
    GrowsLogical call (materialize item) own (fun r own' =>
      ∀ viewed, r = .ok viewed → ∃ stored, (stored = item ∨
        Answered own' (.notifications (.getNotification item.id)) (.ok (some stored))) ∧
        viewed.asCreated = stored.asCreated) := by
  have hview : ∀ own : List (logicalPlatform τ sha256).Step,
      GrowsLogical call (NotificationService.view item) own (fun r own' =>
        ∀ viewed, r = .ok viewed → ∃ stored, (stored = item ∨
          Answered own' (.notifications (.getNotification item.id)) (.ok (some stored))) ∧
          viewed.asCreated = stored.asCreated) :=
    fun own => Traced.Grows.mono (grows_view item) fun r _ _ h viewed hr =>
      ⟨item, .inl rfl, h viewed hr⟩
  unfold materialize
  split
  · exact hview own
  refine Traced.Grows.bind (grows_aside (aside_working.uses uses_now)) ?_
    (fun e _ _ _ viewed h => by cases h)
  intro t own₁ _ _
  split
  · refine Traced.Grows.bind (grows_aside (uses_transitionAtClock aside_working _ _ _ _
      uses_expiryChange _)) ?_ (fun e _ _ _ viewed h => by cases h)
    intro _ own₂ _ _
    refine Traced.Grows.bind (grows_storedNotification item.tenantId item.id) ?_
      (fun e _ _ _ viewed h => by cases h)
    intro stored own₃ _ hstored
    refine Traced.Grows.mono (grows_view (stored.getD item)) fun r own₄ hs₄ h viewed hr => ?_
    cases stored with
    | none => exact ⟨item, .inl rfl, h viewed hr⟩
    | some stored => exact ⟨stored, .inr ((hstored stored rfl).mono hs₄), h viewed hr⟩
  · exact hview own₁

/-- The answer is what was read under the id in the end. -/
theorem grows_answer {identity : LogicalIdentity} (hcall : call.identity = some identity)
    (created : Bool) : GrowsLogical call
      (NotificationService.answer identity.tenantId (identity.id sha256) created) own
      (LogicalSettled call) := by
  unfold NotificationService.answer
  refine Traced.Grows.bind (grows_storedNotification identity.tenantId (identity.id sha256)) ?_
    (fun e _ _ _ result h => by cases h)
  intro current own₁ hs₁ hcurrent
  refine Traced.Grows.bind (Traced.Grows.perform_next fun res before after =>
    allowed_aside (.notifications (.listDeliveries ..)) rfl own₁ call res before after) ?_
    (fun e _ _ _ result h => by cases h)
  rintro deliveries own₂ hs₂ ⟨choice, before, after, -, rfl⟩
  cases current with
  | none => exact Traced.Grows.settled fun result h => by cases h
  | some current =>
    refine Traced.Grows.bind (grows_materialize current) ?_ (fun e _ _ _ result h => by cases h)
    intro notification own₃ hs₃ hmaterialized
    obtain ⟨stored, hstored, hsame⟩ := hmaterialized notification rfl
    refine Traced.Grows.settled fun result h => ?_
    obtain rfl := Except.ok.inj h
    exact ⟨identity, current, stored, own₁, before, after, hcall, hcurrent current rfl, hs₃, hstored,
      hsame⟩

/-! ### Notifying -/

/-- **`notifyInternal` works on the notification of its identity.** -/
theorem grows_notifyAnswered {principal : VerifiedPrincipal} {hasScopes : Bool}
    (hcaller : call.caller = .object principal hasScopes) (createdBy : String) :
    GrowsLogical call ((call.configured sha256).notifyAnswered call.defaults
      { call.input with tenantId := some principal.tenantId } createdBy
      (some call.gateway.application) call.branch) own (LogicalSettled call) := by
  obtain ⟨key, hkey⟩ := Option.isSome_iff_exists.mp call.keyed
  let identity : LogicalIdentity := ⟨principal.tenantId, call.input.recipient, key⟩
  have hidentity : call.identity = some identity := by
    simp [LogicalCall.identity, hcaller, hkey, identity]
  unfold notifyAnswered
  refine Traced.Grows.ofExcept_bind ?_ (fun e _ result h => by cases h)
  intro normalized hnormalized
  obtain ⟨⟨expiresAt, rfl⟩, hpresent⟩ := CreateNotificationInput.normalizeInput_ok hnormalized
  have hkept : keepPresent (some key) = some key := hpresent key hkey
  refine Traced.Grows.bind (grows_aside (aside_working.uses uses_now)) ?_
    (fun e _ _ _ result h => by cases h)
  intro createdAt own₂ _ _
  dsimp only
  split
  · exact Traced.Grows.settled fun result h => by cases h
  have hid : (call.configured sha256).notificationId
      (CreateNotificationInput.normalized (τ := τ)
        { call.input with tenantId := some principal.tenantId } call.defaults expiresAt) =
      pure (identity.id sha256) := by
    have hlogical : CreateNotificationInput.logicalKey
        { call.input with tenantId := some principal.tenantId } = some key := hkey
    simp only [notificationId, CreateNotificationInput.normalized, hlogical, hkept]
    rfl
  rw [hid]
  refine Traced.Grows.bind (Traced.Grows.settled (Q := fun r _ => r = .ok (identity.id sha256)) rfl) ?_
    (fun e _ _ _ result h => by cases h)
  intro id own₃ _ heq
  obtain rfl := Except.ok.inj heq
  refine Traced.Grows.bind (grows_createWithDeliveries ?_) ?_ (fun e _ _ _ result h => by cases h)
  · exact ⟨⟨⟨identity, hidentity, rfl, rfl⟩, rfl, rfl, rfl⟩, createdAt, rfl⟩
  intro created own₄ _ _
  refine Traced.Grows.bind (grows_aside (uses_confirmCreation aside_working.toNotificationAmbient ..))
    ?_ (fun e _ _ _ result h => by cases h)
  intro _ own₅ _ _
  refine Traced.Grows.bind (grows_dispatchPending hidentity _ _) ?_
    (fun e _ _ _ result h => by cases h)
  intro _ own₆ _ _
  exact grows_answer hidentity created

/-- Every call of `notify` keeps to the discipline. -/
theorem logicalTraces_obeyed : (logicalTraces τ sha256).Obeyed := by
  intro call
  refine Discipline.Conforms.mono (Q := fun r (own' : List (logicalPlatform τ sha256).Step) =>
    [] <:+ own' ∧ LogicalSettled call r own') (fun _ _ h => h.2) ?_
  show GrowsLogical call (logicalBody sha256 call) [] (LogicalSettled call)
  unfold logicalBody notify
  refine Traced.Grows.bind (grows_requireVerifiedPrincipal allowed_authority call.caller) ?_
    (fun e _ _ _ result h => by cases h)
  intro principal own₁ _ hprincipal
  obtain ⟨hasScopes, hcaller, -⟩ := hprincipal principal rfl
  refine Traced.Grows.ofExcept_bind ?_ (fun e _ result h => by cases h)
  intro _ _
  refine Traced.Grows.ofExcept_bind ?_ (fun e _ result h => by cases h)
  intro tenantId htenant
  obtain ⟨rfl, -⟩ := resolveTenant_eq_ok.mp htenant
  dsimp only
  refine Traced.Grows.mono (grows_execute allowed_authority (R := fun result own' =>
    LogicalSettled call (.ok result) own') (fun _ _ _ hs h => h.mono hs) ?_) ?_
  · intro context run own₂ _ _ _ _
    refine Traced.Grows.mono (grows_notifyAnswered hcaller principal.principalId) ?_
    rintro r own₃ _ h result rfl
    exact h
  · rintro r own₂ _ h result rfl
    exact h result rfl result rfl

end conformance

end AppPort
