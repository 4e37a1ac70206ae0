import AppPort.Authority.Json
import AppPort.Notifications.Service

/-!
# Identity — which notification a call is about

`notify` as its callers see it: the input is checked and normalized, its logical key is
the one that was given or one derived from the source event, and the id of the
notification is a digest of tenant, recipient and key. The answer is the notification
as it stands in the end, with its deliveries.

The order `sortDeliveries` puts the deliveries of an answer in is left out.
-/

namespace AppPort

open Effects Sensitive

variable {τ : Type}

def MAX_DATA_BYTES : Nat := 64 * 1024

def MAX_TEXT_LENGTH : Nat := 4096

def INPUT_FIELDS : List String := ["tenantId", "recipient", "type", "title", "body", "data", "source",
  "priority", "channels", "channel", "idempotencyKey", "expiresAt"]

structure CreateNotificationInput where
  tenantId : Option String := none
  recipient : String
  type : String
  title : String
  body : Option String := none
  data : Option JsValue := none
  source : Option NotificationSource := none
  priority : Option NotificationPriority := none
  channels : Option (List String) := none
  channel : Option String := none
  idempotencyKey : Option String := none
  expiresAt : Option String := none
  /-- The object as it was given, for the fields that are refused. -/
  raw : JsValue := .obj []

/-- The settings of a service for what an input leaves out. -/
structure NotificationDefaults where
  channels : List String := ["in-app"]
  priority : Option NotificationPriority := none

structure NotificationResult (τ : Type) where
  notification : Notification τ
  deliveries : List (NotificationDelivery τ)
  /-- False when the request resolved to an existing notification. -/
  created : Bool

/-! ## The input -/

def NotificationValidationError (message : String) : JsError := .other message

/-- A check of the input. -/
def demand (holds : Bool) (message : String) : Except JsError Unit :=
  if holds then .ok () else .error (NotificationValidationError message)

/-- `requiredText`. -/
def requiredText (value name : String) (max : Nat) : Except JsError Unit := do
  demand (!isBlank value) (name ++ " is required")
  demand (jsLength value ≤ max) (name ++ " is too long")

/-- A field that is checked where it is there. -/
def optionalText (value : Option String) (name : String) (max : Nat) : Except JsError Unit :=
  match value with
  | none => .ok ()
  | some value => requiredText value name max

/-- `normalizeSource`. -/
def normalizeSource (source : Option NotificationSource) : Except JsError Unit :=
  match source with
  | none => .ok ()
  | some source => do
    requiredText source.type "source.type" 128
    optionalText source.id "source.id" 256
    optionalText source.eventId "source.eventId" 256

/-- `/^[A-Za-z0-9][A-Za-z0-9_.:-]*$/`. -/
def isTypeName (type : String) : Bool :=
  match jsUnits type with
  | [] => false
  | first :: rest => alnum first && rest.all (orAny alnum "_.:-")

/-- The first name outside the fields of an input. -/
def unknownField : JsValue → Option String
  | .obj fields => (fields.map Prod.fst).find? fun key => !INPUT_FIELDS.contains key
  | _ => none

namespace CreateNotificationInput

variable (input : CreateNotificationInput)

/-- The channels that are asked for. -/
def requested (defaults : NotificationDefaults) : List String :=
  input.channels.getD (match input.channel with
    | some channel => [channel]
    | none => defaults.channels)

/-- `firstRequestedChannel`. -/
def firstRequestedChannel (defaults : NotificationDefaults) : String :=
  ((input.requested defaults).head?.or defaults.channels.head?).getD "in-app"

/-- The key of the notification: given, or derived from the source event. -/
def logicalKey : Option String :=
  input.idempotencyKey.or (match input.source with
    | none => none
    | some source => (keepPresent source.eventId).map fun eventId =>
      jsonTexts [source.type, eventId, input.type])

/-- The checks of `normalizeInput` before the key is derived. -/
def assertFields (channels : List String) (defaults : NotificationDefaults) : Except JsError Unit := do
  match unknownField input.raw with
  | some key => .error (NotificationValidationError ("Unknown field: " ++ key))
  | none => pure ()
  requiredText (input.tenantId.getD "") "tenantId" 256
  requiredText input.recipient "recipient" 256
  requiredText input.type "type" 128
  demand (isTypeName input.type)
    "type must contain only letters, digits, \".\", \"_\", \":\", or \"-\""
  requiredText input.title "title" MAX_TEXT_LENGTH
  demand (jsLength (input.body.getD "") ≤ MAX_TEXT_LENGTH * 4) "body is too long"
  match input.data with
  | none => pure ()
  | some (.obj fields) =>
    demand ((((JsValue.obj fields).stableJson).getD "").utf8ByteSize ≤ MAX_DATA_BYTES)
      "data is too large"
  | some _ => .error (NotificationValidationError "data must be an object")
  normalizeSource input.source
  demand (!(input.requested defaults).isEmpty) "channels must be a non-empty array of strings"
  match (distinct (input.requested defaults)).find? fun channel => !channels.contains channel with
  | some channel => .error (NotificationValidationError ("Unknown notification channel: " ++ channel))
  | none => pure ()

/-- The expiry of the input. -/
def expiry [Timestamp τ] : Except JsError (Option τ) :=
  match input.expiresAt with
  | none => .ok none
  | some text =>
    match Timestamp.parse text with
    | some t => .ok (some t)
    | none => .error (NotificationValidationError "expiresAt must be an ISO-8601 timestamp")

/-- No text of the input may be a credential. -/
def assertContent : Except JsError Unit := do
  assertTextNoCredentials "title" (some input.title)
  assertTextNoCredentials "body" input.body
  match input.data with
  | none => pure ()
  | some data => assertNoCredentials "data" data
  match input.source with
  | none => pure ()
  | some source => assertNoCredentials "source" source.toJs
  assertTextNoCredentials "idempotencyKey" (keepPresent input.logicalKey)

/-- What an input that passes is normalized to. -/
def normalized (defaults : NotificationDefaults) (expiresAt : Option τ) :
    NormalizedNotification τ where
  tenantId := input.tenantId.getD ""
  recipient := input.recipient
  type := input.type
  title := input.title
  priority := (input.priority.or defaults.priority).getD .normal
  channels := distinct (input.requested defaults)
  body := input.body
  data := input.data
  source := input.source
  idempotencyKey := keepPresent input.logicalKey
  expiresAt := expiresAt

/-- `normalizeInput`, for a service with these channels. -/
def normalizeInput [Timestamp τ] (channels : List String) (defaults : NotificationDefaults) :
    Except JsError (NormalizedNotification τ) := do
  input.assertFields channels defaults
  let expiresAt ← input.expiry
  optionalText input.idempotencyKey "idempotencyKey" 256
  input.assertContent
  pure (input.normalized defaults expiresAt)

end CreateNotificationInput

/-! ### What a normalized input is -/

theorem requiredText_ok {value name : String} {max : Nat}
    (h : requiredText value name max = .ok ()) : value ≠ "" := by
  obtain ⟨_, hblank, _⟩ := bind_eq_ok h
  rintro rfl
  cases hblank

theorem jsonTexts_ne_empty (parts : List String) : jsonTexts parts ≠ "" := by
  intro h
  have hlist := congrArg String.toList h
  simp [jsonTexts] at hlist

namespace CreateNotificationInput

variable {input : CreateNotificationInput}

/-- **A normalized input keeps its key**, which is not empty. -/
theorem normalizeInput_ok [Timestamp τ] {channels : List String} {defaults : NotificationDefaults}
    {normalized : NormalizedNotification τ}
    (h : input.normalizeInput channels defaults = .ok normalized) :
    (∃ expiresAt, normalized = input.normalized defaults expiresAt) ∧
      ∀ key, input.logicalKey = some key → keepPresent (some key) = some key := by
  obtain ⟨-, -, h⟩ := bind_eq_ok h
  obtain ⟨expiresAt, -, h⟩ := bind_eq_ok h
  obtain ⟨⟨⟩, hkey, h⟩ := bind_eq_ok h
  obtain ⟨-, -, h⟩ := bind_eq_ok h
  refine ⟨⟨expiresAt, (Except.ok.inj h).symm⟩, fun key hlogical => ?_⟩
  have hne : key ≠ "" := by
    unfold logicalKey at hlogical
    cases hgiven : input.idempotencyKey with
    | some given =>
      rw [hgiven] at hkey hlogical
      obtain rfl := Option.some.inj hlogical
      exact requiredText_ok hkey
    | none =>
      rw [hgiven, Option.none_or] at hlogical
      split at hlogical
      · cases hlogical
      · obtain ⟨eventId, -, rfl⟩ := Option.map_eq_some_iff.mp hlogical
        exact jsonTexts_ne_empty _
  simp [keepPresent, present, hne]

end CreateNotificationInput

/-! ## The id -/

/-- The characters of an id that are taken from a digest, which is a hexadecimal text. -/
def uuidOf (hex : List Char) : List Char :=
  let slice (start stop : Nat) : List Char := (hex.drop start).take (stop - start)
  let variant := lowerHexDigit ("0123456789abcdef".toList.idxOf (hex.getD 16 '0') % 4 + 8)
  slice 0 8 ++ '-' :: slice 8 12 ++ '-' :: '5' :: slice 13 16 ++ '-' :: variant :: slice 17 20 ++
    '-' :: slice 20 32

/-- `stableUuid`, over the digest of a text. -/
def stableUuid (sha256 : String → String) (parts : List String) : String :=
  String.ofList (uuidOf (sha256 (jsonTexts parts)).toList)

/-- Among these texts no two have the same id: the digest is free of collisions, in the
part of it that an id keeps. -/
def CollisionFree (sha256 : String → String) (texts : List String) : Prop :=
  ∀ a ∈ texts, ∀ b ∈ texts, uuidOf (sha256 a).toList = uuidOf (sha256 b).toList → a = b

instance (sha256 : String → String) (texts : List String) : Decidable (CollisionFree sha256 texts) :=
  inferInstanceAs (Decidable (∀ a ∈ texts, ∀ b ∈ texts, _ → a = b))

/-- **The id determines its parts.** -/
theorem stableUuid_injOn {sha256 : String → String} {texts : List String}
    (h : CollisionFree sha256 texts) {parts parts' : List String} (hparts : jsonTexts parts ∈ texts)
    (hparts' : jsonTexts parts' ∈ texts)
    (heq : stableUuid sha256 parts = stableUuid sha256 parts') : parts = parts' :=
  jsonTexts_injective (h _ hparts _ hparts' (String.ofList_injective heq))

theorem stableUuid_ne_empty (sha256 : String → String) (parts : List String) :
    stableUuid sha256 parts ≠ "" := by
  intro h
  have hlist := congrArg String.toList h
  simp [stableUuid, uuidOf] at hlist

/-! ## Notifying -/

namespace NotificationService

variable [Timestamp τ] (service : NotificationService τ)

/-- The answer of `notifyInternal`: the notification as it stands now, and its deliveries. -/
def answer (tenantId id : String) (created : Bool) : Svc τ (NotificationResult τ) := do
  let current ← storedNotification tenantId id
  let deliveries : List (NotificationDelivery τ) ←
    (NotificationOp.listDeliveries tenantId (some id)).perform
  match current with
  | none => throw (.other "Cannot read properties of null (reading 'expiresAt')")
  | some current => do
    let notification ← materialize current
    pure { notification, deliveries, created }

/-- `notifyInternal`, with its answer. -/
def notifyAnswered (defaults : NotificationDefaults) (input : CreateNotificationInput)
    (createdBy : String) (applicationId : Option String) (branch : Nat) :
    Svc τ (NotificationResult τ) := do
  let normalized ← check (input.normalizeInput service.channels defaults)
  let createdAt ← now
  if normalized.expiresAt.any fun expiresAt => expiresAt ≤ createdAt then
    throw (.other "expiresAt must be in the future")
  else
    let id ← service.notificationId normalized
    let notification := notificationRecord normalized id createdBy applicationId createdAt
    let deliveries := notification.channels.map (service.deliveryRecord notification createdAt)
    let created ← createWithDeliveries notification deliveries
    confirmCreation notification createdBy created
    service.dispatchPending notification.tenantId id branch
    answer notification.tenantId id created

/-- `notify`. -/
def notify (defaults : NotificationDefaults) (input : CreateNotificationInput)
    (caller : PrincipalInput) (legacy : LegacyPrincipal) (branch : Nat) :
    Svc τ (NotificationResult τ) :=
  match service.authority with
  | some gateway => do
    let principal ← requireVerifiedPrincipal caller
    check (rejectCallerActor input.raw principal)
    let tenantId ← check (resolveTenant input.tenantId principal)
    let channel := input.firstRequestedChannel defaults
    gateway.execute "notifications.send" (.of principal)
      { type := "notification", tenantId := tenantId
        attributes := [("recipient", input.recipient), ("channel", channel)] }
      { service := "notifications", provider := some channel }
      fun _ _ => service.notifyAnswered defaults { input with tenantId := some tenantId }
        principal.principalId (some gateway.application) branch
  | none => do
    check (authorizeTenant legacy (input.tenantId.getD "") "notifications.create")
    service.notifyAnswered defaults input legacy.principalId none branch

end NotificationService

end AppPort
