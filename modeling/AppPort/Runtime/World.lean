import AppPort.ApiKeys.Store
import AppPort.Configuration.Store
import AppPort.Jobs.Store
import AppPort.Lib.Pool
import AppPort.Notifications.Store

/-!
# The shared world and its calls

Everything a service awaits is one call of `AppOp`: the clock, the module-private
brands (`WeakSet`s) and lookup hints, the durable stores, the authorizer, and code the
host owns. `exec` is the atomic effect of one call on the shared `World`.

Three kinds of answer are not the world's to give and come with the scheduler's
`Choice`: what an outside party replies (the authorizer, custody, a provider, a
handler of the host), which fresh id is drawn, and whether the database call
fails. A failing call rejects with an error that is not a `ServiceAuthorityError`,
and may or may not have committed before it did.

Code of the host is opaque: invoking it is one call, its settling another, and
whatever it does in between to the services it does through their entry points,
as calls of other processes.
-/

namespace AppPort

open Effects

variable {τ : Type}

/-- What a running job is allowed to act as. -/
structure JobExecution (τ : Type) where
  principal : VerifiedPrincipal
  context : ServiceExecutionContext τ
  runId : String

/-- The event a host's inbound handler receives. -/
structure InboundWebhookEvent (τ : Type) where
  integrationId : String
  provider : String
  eventId : String
  timestamp : τ
  payload : JsValue

/-- How the race of the authorizer against its timeout ended. -/
inductive AuthorizerRace where
  /-- The authorizer settled first: with a reply, or by throwing. -/
  | answered (reply : Except JsError JsValue)
  | timedOut

/-- What custody answers: material (or a status, or what it stored), a refusal with its
`SecretError` code (or with none), or an error of another kind. -/
inductive SecretAnswer where
  | resolved (value : JsValue)
  | refused (code : Option String)
  | failed (e : JsError)

/-- How a provider answered a POST. -/
inductive ProviderReply where
  | status (statusCode : Nat)
  | networkError (message : String)
  | timeout

/-- A destination that passed the destination policy. -/
structure ValidatedDestination where
  url : String
  origin : String
  deriving DecidableEq, Repr

/-- What the services ask custody for. -/
structure SecretRequest where
  credentialRef : String
  tenantId : String
  provider : Option String
  principalId : String
  purpose : String
  authorizationRef : String
  kind : Option String := none
  deriving DecidableEq, Repr

/-! ## Calls -/

/-- Clock, draws, brands, lookup hints, authorizer and evidence. -/
inductive AuthorityOp (τ : Type) where
  /-- `this.now()`. -/
  | now
  /-- `randomUUID()`. -/
  | uuid
  /-- `randomBytes(size)`. -/
  | randomBytes (size : Nat)
  /-- A lookup hint of a key service: the service object, and what it does. -/
  | keyMemory (service : Nat) (op : ApiKeyMemoryOp τ)
  /-- Freeze and brand a principal. -/
  | mint (claims : PrincipalClaims) (verifiedBy : PrincipalVerification)
  /-- `verified.has(value)`. -/
  | isVerified (p : VerifiedPrincipal)
  /-- `bindCredentialCheck`. -/
  | bindCredential (p : VerifiedPrincipal) (binding : CredentialBinding)
  /-- `bindings.has(principal)`. -/
  | hasBinding (p : VerifiedPrincipal)
  /-- Run the bound credential check: read the key, then decide. -/
  | checkCredential (p : VerifiedPrincipal) (capability : String) (resource : ServiceResource)
  /-- Freeze and brand a context (`issued.add`). -/
  | issue (context : ServiceExecutionContext τ)
  /-- `issued.has(value)`. -/
  | isIssued (context : ServiceExecutionContext τ)
  /-- `consumed.has(context)`, then `consumed.add(context)`. -/
  | consume (context : ServiceExecutionContext τ)
  /-- Ask the authorizer, racing its timeout. -/
  | authorize (request : ServiceAuthorizationRequest τ)
  /-- `evidence.record`: insert a row under an absent id. -/
  | recordEvidence (row : EffectEvidence τ)
  /-- The row under an id. -/
  | getEvidence (id : String)
  /-- Overwrite the row under an id. -/
  | putEvidence (id : String) (row : EffectEvidence τ)
  /-- `evidence.findByDecision`. -/
  | findByDecision (decisionId : String)
  /-- `resolvedRefs.push(ref)`, the list one run of an effect keeps. -/
  | pushRef (run ref : String)
  /-- `resolvedRefs` of a run. -/
  | resolvedRefs (run : String)
  /-- `auditSink.list` of the key service. -/
  | listKeyAudit (tenantId : String)

@[reducible] def AuthorityOp.Out (τ : Type) : AuthorityOp τ → Type
  | .now => τ
  | .uuid => String
  | .randomBytes size => SizedBytes size
  | .keyMemory _ op => op.Out
  | .mint _ _ => VerifiedPrincipal
  | .isVerified _ | .hasBinding _ | .isIssued _ | .consume _ => Bool
  | .bindCredential _ _ | .checkCredential _ _ _ | .recordEvidence _ | .putEvidence _ _
  | .pushRef _ _ => Unit
  | .resolvedRefs _ => List String
  | .issue _ => ServiceExecutionContext τ
  | .authorize _ => AuthorizerRace
  | .getEvidence _ => Option (EffectEvidence τ)
  | .findByDecision _ => List (EffectEvidence τ)
  | .listKeyAudit _ => List (ApiKeyAuditEvent τ)

/-- Code the host owns, and the network. -/
inductive HostOp (τ : Type) where
  /-- Invoke an effect the host passed in, under its context. -/
  | startEffect (context : ServiceExecutionContext τ)
  /-- The effect settles. -/
  | awaitEffect (context : ServiceExecutionContext τ)
  /-- Invoke the registered handler of a job. -/
  | startJobHandler (job : Job τ) (execution : Option (JobExecution τ))
  /-- The handler settles. -/
  | awaitJobHandler (job : Job τ)
  /-- `custody.withSecret`. -/
  | withSecret (request : SecretRequest)
  /-- `custody.status`. -/
  | custodyStatus (request : SecretRequest)
  /-- `custody.store`. -/
  | custodyStore (request : SecretRequest) (value : String)
  /-- `validateDestination`: parse, resolve and check against the policy. -/
  | validateDestination (url : String)
  /-- POST a delivery to its destination. -/
  | post (delivery : WebhookDelivery τ) (destination : ValidatedDestination) (payload signature : String)
  /-- Invoke the registered handler of an inbound event. -/
  | startInboundHandler (event : InboundWebhookEvent τ) (principal : VerifiedPrincipal)
      (context : ServiceExecutionContext τ)
  /-- The handler settles. -/
  | awaitInboundHandler (event : InboundWebhookEvent τ)
  /-- Invoke the channel of a notification delivery. -/
  | startChannel (notification : Notification τ) (delivery : NotificationDelivery τ)
  /-- The channel settles. -/
  | awaitChannel (delivery : NotificationDelivery τ)

@[reducible] def HostOp.Out (τ : Type) : HostOp τ → Type
  | .startEffect _ | .startJobHandler _ _ | .startInboundHandler _ _ _ | .awaitJobHandler _
  | .startChannel _ _ => Unit
  | .awaitChannel _ => NotificationDeliveryResult
  | .withSecret _ | .custodyStatus _ | .custodyStore _ _ => SecretAnswer
  | .validateDestination _ => ValidatedDestination
  | .post _ _ _ _ => ProviderReply
  | .awaitEffect _ | .awaitInboundHandler _ => JsValue

/-- Audit sinks: append only. -/
inductive AuditOp (τ : Type) where
  | job (event : JobAuditEvent τ)
  | webhook (event : WebhookAuditEvent τ)
  | notification (event : NotificationAuditEvent τ)
  | apiKey (event : ApiKeyAuditEvent τ)

/-- An operation a transaction has queued; every one inserts under an absent id. -/
inductive TransactionOperation (τ : Type) where
  | evidence (row : EffectEvidence τ)
  | job (job : Job τ)
  | jobAudit (event : JobAuditEvent τ)
  | delivery (delivery : WebhookDelivery τ)
  | webhookAudit (event : WebhookAuditEvent τ)
  | notification (item : Notification τ)
  | notificationDelivery (delivery : NotificationDelivery τ)
  | notificationAudit (event : NotificationAuditEvent τ)

/-- Every call a service may await. -/
inductive AppOp (τ : Type) where
  | authority (op : AuthorityOp τ)
  | jobs (op : JobOp τ)
  | schedules (op : ScheduleOp τ)
  | webhooks (op : WebhookOp τ)
  | notifications (op : NotificationOp τ)
  | apiKeys (op : ApiKeyOp τ)
  | configuration (op : ConfigurationOp τ)
  | secretMetadata (op : SecretMetadataOp)
  | audit (op : AuditOp τ)
  /-- Commit the queued operations of a transaction, all or none. -/
  | commit (operations : List (TransactionOperation τ))
  | host (op : HostOp τ)

@[reducible] def AppOp.Out (τ : Type) : AppOp τ → Type
  | .authority op => op.Out
  | .jobs op => op.Out
  | .schedules op => op.Out
  | .webhooks op => op.Out
  | .notifications op => op.Out
  | .apiKeys op => op.Out
  | .configuration op => op.Out
  | .secretMetadata op => op.Out
  | .audit _ | .commit _ => Unit
  | .host op => op.Out

/-- The signature of the services. -/
abbrev services (τ : Type) : Sig := ⟨AppOp τ, AppOp.Out τ, JsError⟩

/-- An asynchronous function of a service. -/
abbrev Svc (τ α : Type) := Task (services τ) α

/-! ## The world -/

structure World (τ : Type) where
  clock : τ
  /-- The next object identity. -/
  nextRef : Nat := 0
  /-- The principal brand. -/
  verified : List VerifiedPrincipal := []
  /-- Principals a live credential check is bound to. -/
  bound : List (Nat × CredentialBinding) := []
  /-- The context brand. -/
  issued : List (ServiceExecutionContext τ) := []
  /-- Contexts already used. -/
  consumed : List Nat := []
  /-- The lookup hints of each key service. -/
  keyMemory : Nat → ApiKeyMemory τ := fun _ => {}
  /-- The credential references each run of an effect has resolved, newest first. -/
  resolved : List (String × String) := []
  evidence : Table String (EffectEvidence τ) := Table.empty
  jobs : Table String (Job τ) := Table.empty
  schedules : Table String (JobSchedule τ) := Table.empty
  webhooks : WebhookTables τ := {}
  notifications : NotificationTables τ := {}
  apiKeys : ApiKeyTables τ := {}
  configuration : ConfigurationTables τ := {}
  secretMetadata : SecretMetadataTables := {}
  jobAudit : List (JobAuditEvent τ) := []
  webhookAudit : List (WebhookAuditEvent τ) := []
  notificationAudit : List (NotificationAuditEvent τ) := []
  apiKeyAudit : List (ApiKeyAuditEvent τ) := []

/-- What the scheduler settles. -/
inductive Choice where
  /-- The call goes through. -/
  | proceed
  /-- The database call rejects, before or after it committed. -/
  | reject (committed : Bool) (message : String)
  /-- A drawn id. -/
  | draw (id : String)
  /-- Random bytes. -/
  | bytes (bytes : List UInt8)
  /-- The authorizer's answer, and whether the timeout fired before it. -/
  | decision (late : Bool) (reply : Except JsError JsValue)
  /-- How code of the host settles. -/
  | host (r : Except JsError JsValue)
  /-- What custody answers. -/
  | secret (a : SecretAnswer)
  /-- What the destination policy says. -/
  | destination (r : Except JsError ValidatedDestination)
  /-- What the provider answers. -/
  | provider (r : ProviderReply)
  /-- How a notification channel settles. -/
  | channel (r : Except JsError NotificationDeliveryResult)

/-- A call of the database: it goes through, or it rejects. -/
def stored {α : Type} (choice : Choice) (w : World τ) (r : Except JsError α × World τ) :
    Option (Except JsError α × World τ) :=
  match choice with
  | .proceed => some r
  | .reject committed message => some (.error (.other message), if committed then r.2 else w)
  | _ => none

/-- A call that only computes. -/
def computed {α : Type} (choice : Choice) (r : α × World τ) : Option (Except JsError α × World τ) :=
  match choice with
  | .proceed => some (.ok r.1, r.2)
  | _ => none

/-- A call of host code that settles without a value. -/
def settledByHost {α : Type} (value : JsValue → α) (choice : Choice) (w : World τ) :
    Option (Except JsError α × World τ) :=
  match choice with
  | .host r => some (r.map value, w)
  | _ => none

def AuthorityOp.exec [Timestamp τ] (choice : Choice) (w : World τ) :
    (op : AuthorityOp τ) → Option (Except JsError (op.Out τ) × World τ)
  | .now => computed choice (w.clock, w)
  | .uuid =>
    match choice with
    | .draw id => if id = "" then none else some (.ok id, w)
    | _ => none
  | .randomBytes size =>
    match choice with
    | .bytes bytes => if h : bytes.length = size then some (.ok ⟨bytes, h⟩, w) else none
    | _ => none
  | .keyMemory service op =>
    let (r, memory) := op.exec (w.keyMemory service)
    computed choice (r, { w with
      keyMemory := fun s => if s = service then memory else w.keyMemory s })
  | .mint claims verifiedBy =>
    let p := mintedPrincipal claims verifiedBy w.nextRef
    computed choice (p, { w with nextRef := w.nextRef + 1, verified := p :: w.verified })
  | .isVerified p => computed choice (decide (p ∈ w.verified), w)
  | .bindCredential p binding =>
    computed choice ((), { w with bound := (p.ref, binding) :: w.bound })
  | .hasBinding p => computed choice (w.bound.any (fun b => b.1 == p.ref), w)
  | .checkCredential p capability resource =>
    match w.bound.find? (fun b => b.1 == p.ref) with
    | some (_, binding) => stored choice w
        (binding.check (w.apiKeys.keys.get binding.apiKeyId) w.clock capability resource, w)
    | none => computed choice ((), w)
  | .issue context =>
    let context' := { context with ref := w.nextRef }
    computed choice (context', { w with nextRef := w.nextRef + 1, issued := context' :: w.issued })
  | .isIssued context => computed choice (decide (context ∈ w.issued), w)
  | .consume context =>
    computed choice (decide (context.ref ∈ w.consumed), { w with consumed := context.ref :: w.consumed })
  | .authorize _ =>
    match choice with
    | .decision late reply => some (.ok (if late then .timedOut else .answered reply), w)
    | _ => none
  | .recordEvidence row =>
    if row.hasNoSecrets then
      stored choice w (match w.evidence.insertAbsent row.id row with
        | some evidence => (.ok (), { w with evidence })
        | none => (.error absentError, w))
    else computed choice ((), w) |>.map fun r =>
      (.error (.other "Evidence contains credential material"), r.2)
  | .getEvidence id => stored choice w (.ok (w.evidence.get id), w)
  | .putEvidence id row => stored choice w (.ok (), { w with evidence := w.evidence.put id row })
  | .findByDecision decisionId =>
    stored choice w (.ok (w.evidence.find (fun row => row.decisionId == some decisionId)), w)
  | .pushRef run ref => computed choice ((), { w with resolved := (run, ref) :: w.resolved })
  | .resolvedRefs run =>
    computed choice
      ((w.resolved.reverse.filter (fun entry => entry.1 == run)).map (fun entry => entry.2), w)
  | .listKeyAudit tenantId =>
    stored choice w (.ok (w.apiKeyAudit.reverse.filter (fun event => event.tenantId == tenantId)), w)

def HostOp.exec (choice : Choice) (w : World τ) :
    (op : HostOp τ) → Option (Except JsError (op.Out τ) × World τ)
  | .startEffect _ => computed choice ((), w)
  | .awaitEffect _ => settledByHost id choice w
  | .startJobHandler _ _ => computed choice ((), w)
  | .awaitJobHandler _ => settledByHost (fun _ => ()) choice w
  | .withSecret _ | .custodyStatus _ | .custodyStore _ _ =>
    match choice with
    | .secret a => some (.ok a, w)
    | _ => none
  | .validateDestination _ =>
    match choice with
    | .destination r => some (r, w)
    | _ => none
  | .post _ _ _ _ =>
    match choice with
    | .provider r => some (.ok r, w)
    | _ => none
  | .startInboundHandler _ _ _ => computed choice ((), w)
  | .awaitInboundHandler _ => settledByHost id choice w
  | .startChannel _ _ => computed choice ((), w)
  | .awaitChannel _ =>
    match choice with
    | .channel r => some (r, w)
    | _ => none

def AuditOp.exec (choice : Choice) (w : World τ) :
    AuditOp τ → Option (Except JsError Unit × World τ)
  | .job event => stored choice w (.ok (), { w with jobAudit := event :: w.jobAudit })
  | .webhook event => stored choice w (.ok (), { w with webhookAudit := event :: w.webhookAudit })
  | .notification event =>
    stored choice w (.ok (), { w with notificationAudit := event :: w.notificationAudit })
  | .apiKey event => stored choice w (.ok (), { w with apiKeyAudit := event :: w.apiKeyAudit })

/-- One queued operation. -/
def TransactionOperation.apply (w : World τ) : TransactionOperation τ → Option (World τ)
  | .evidence row => (w.evidence.insertAbsent row.id row).map fun t => { w with evidence := t }
  | .job j => (w.jobs.insertAbsent j.id j).map fun t => { w with jobs := t }
  | .jobAudit event => some { w with jobAudit := event :: w.jobAudit }
  | .delivery d => (w.webhooks.deliveries.insertAbsent d.id d).map fun t =>
      { w with webhooks := { w.webhooks with deliveries := t } }
  | .webhookAudit event => some { w with webhookAudit := event :: w.webhookAudit }
  | .notification n => (w.notifications.notifications.insertAbsent n.id n).map fun t =>
      { w with notifications := { w.notifications with notifications := t } }
  | .notificationDelivery d => (w.notifications.deliveries.insertAbsent d.id d).map fun t =>
      { w with notifications := { w.notifications with deliveries := t } }
  | .notificationAudit event => some { w with notificationAudit := event :: w.notificationAudit }

/-- All queued operations, in order, or none. -/
def applyAll (w : World τ) : List (TransactionOperation τ) → Option (World τ)
  | [] => some w
  | op :: rest =>
    match op.apply w with
    | some w' => applyAll w' rest
    | none => none

/-- What every queued operation does, the whole commit does. -/
theorem applyAll_rel {R : World τ → World τ → Prop} (hrefl : ∀ w, R w w)
    (htrans : ∀ {w₁ w₂ w₃}, R w₁ w₂ → R w₂ w₃ → R w₁ w₃) :
    {ops : List (TransactionOperation τ)} → {w w' : World τ} →
    (∀ op ∈ ops, ∀ w w', op.apply w = some w' → R w w') → applyAll w ops = some w' → R w w'
  | [], w, w', _, h => by
    obtain rfl := Option.some.inj h
    exact hrefl w
  | op :: rest, w, w', hops, h => by
    simp only [applyAll] at h
    cases hop : op.apply w with
    | none =>
      rw [hop] at h
      cases h
    | some w₁ =>
      rw [hop] at h
      have hfirst := hops op List.mem_cons_self w w₁ hop
      have hrest := applyAll_rel hrefl htrans
        (fun op' hop' => hops op' (List.mem_cons_of_mem _ hop')) h
      exact htrans hfirst hrest

/-- A queued operation leaves everything but the stores alone. -/
theorem TransactionOperation.apply_verified {op : TransactionOperation τ} {w w' : World τ}
    (h : op.apply w = some w') : w'.verified = w.verified := by
  cases op <;> simp only [TransactionOperation.apply, Option.map_eq_some_iff] at h
  case jobAudit | webhookAudit | notificationAudit =>
    cases h
    rfl
  all_goals
    obtain ⟨t, -, rfl⟩ := h
    rfl

/-- The atomic effect of one call. -/
def AppOp.exec [Timestamp τ] : (op : AppOp τ) → Choice → World τ →
    Option (Except JsError (op.Out τ) × World τ)
  | .authority op, choice, w => op.exec choice w
  | .jobs op, choice, w =>
    match op.exec w.clock w.jobs with
    | (r, jobs') => stored choice w (r, { w with jobs := jobs' })
  | .schedules op, choice, w =>
    match op.exec w.schedules with
    | (r, schedules') => stored choice w (r, { w with schedules := schedules' })
  | .webhooks op, choice, w =>
    match op.exec w.clock w.webhooks with
    | (r, webhooks') => stored choice w (r, { w with webhooks := webhooks' })
  | .notifications op, choice, w =>
    match op.exec w.notifications with
    | (r, notifications') => stored choice w (r, { w with notifications := notifications' })
  | .apiKeys op, choice, w =>
    match op.exec w.apiKeys with
    | (r, apiKeys') => stored choice w (r, { w with apiKeys := apiKeys' })
  | .configuration op, choice, w =>
    match op.exec w.configuration with
    | (r, configuration') => stored choice w (r, { w with configuration := configuration' })
  | .secretMetadata op, choice, w =>
    match op.exec w.secretMetadata with
    | (r, secretMetadata') => stored choice w (r, { w with secretMetadata := secretMetadata' })
  | .audit op, choice, w => op.exec choice w
  | .commit operations, choice, w =>
    stored choice w (match applyAll w operations with
      | some w' => (.ok (), w')
      | none => (.error absentError, w))
  | .host op, choice, w => op.exec choice w

/-! ## What a call leaves alone -/

/-- A call that only computes does not reject. -/
theorem computed_ok {α : Type} {choice : Choice} {r : α × World τ} {res : Except JsError α} {w' : World τ}
    (h : computed choice r = some (res, w')) : res = .ok r.1 ∧ w' = r.2 := by
  unfold computed at h
  split at h
  · cases h
    exact ⟨rfl, rfl⟩
  · cases h

/-- A database call settles as its store does, or rejects with an error that is not
the services' own. -/
theorem stored_cases {α : Type} {choice : Choice} {w w' : World τ} {r : Except JsError α × World τ}
    {res : Except JsError α} (h : stored choice w r = some (res, w')) :
    (res = r.1 ∧ w' = r.2) ∨ ∃ message, res = .error (.other message) ∧ (w' = r.2 ∨ w' = w) := by
  unfold stored at h
  split at h
  · cases h
    exact .inl ⟨rfl, rfl⟩
  · next committed message =>
    cases h
    refine .inr ⟨message, rfl, ?_⟩
    cases committed
    · exact .inr rfl
    · exact .inl rfl
  · cases h

/-- A store that rejects does not do so with an error of the services' own. -/
theorem stored_error {α : Type} {choice : Choice} {w w' : World τ} {r : Except JsError α × World τ}
    {e : JsError} (h : stored choice w r = some (.error e, w')) (hok : ∃ a, r.1 = .ok a) :
    e.code? = none := by
  rcases stored_cases h with ⟨hres, -⟩ | ⟨message, hres, -⟩
  · obtain ⟨a, ha⟩ := hok
    rw [ha] at hres
    cases hres
  · cases hres
    rfl

/-- Code of the host leaves the world alone; what it does to the services it does
through their entry points. -/
theorem HostOp.exec_world {op : HostOp τ} {choice : Choice} {w w' : World τ}
    {res : Except JsError (op.Out τ)} (h : op.exec choice w = some (res, w')) : w' = w := by
  cases op with
  | startEffect | startJobHandler | startInboundHandler | startChannel => exact (computed_ok h).2
  | awaitEffect | awaitJobHandler | withSecret | custodyStatus | custodyStore
  | validateDestination | post
  | awaitInboundHandler | awaitChannel =>
    simp only [HostOp.exec, settledByHost] at h
    split at h
    · cases h
      rfl
    · cases h

/-- Drawing bytes changes nothing. -/
theorem AuthorityOp.exec_randomBytes [Timestamp τ] {size : Nat} {choice : Choice} {w w' : World τ}
    {res : Except JsError (SizedBytes size)}
    (h : (AuthorityOp.randomBytes size).exec choice w = some (res, w')) : w' = w := by
  simp only [AuthorityOp.exec] at h
  split at h
  · split at h
    · cases h
      rfl
    · cases h
  · cases h

/-- A drawn id is a text with something in it. -/
theorem AuthorityOp.exec_uuid [Timestamp τ] {choice : Choice} {w w' : World τ}
    {res : Except JsError String}
    (h : (AuthorityOp.uuid : AuthorityOp τ).exec choice w = some (res, w')) :
    w' = w ∧ ∃ id, id ≠ "" ∧ res = .ok id := by
  simp only [AuthorityOp.exec] at h
  split at h
  · next id =>
    by_cases hid : id = ""
    · rw [if_pos hid] at h
      cases h
    · rw [if_neg hid] at h
      cases h
      exact ⟨rfl, id, hid, rfl⟩
  · cases h

/-- The durable records and the clock are as they were. -/
structure SameStores (w w' : World τ) : Prop where
  clock : w'.clock = w.clock
  jobs : w'.jobs = w.jobs
  schedules : w'.schedules = w.schedules
  webhooks : w'.webhooks = w.webhooks
  notifications : w'.notifications = w.notifications
  apiKeys : w'.apiKeys = w.apiKeys
  configuration : w'.configuration = w.configuration
  secretMetadata : w'.secretMetadata = w.secretMetadata
  jobAudit : w'.jobAudit = w.jobAudit
  webhookAudit : w'.webhookAudit = w.webhookAudit
  notificationAudit : w'.notificationAudit = w.notificationAudit
  apiKeyAudit : w'.apiKeyAudit = w.apiKeyAudit

theorem SameStores.refl (w : World τ) : SameStores w w :=
  ⟨rfl, rfl, rfl, rfl, rfl, rfl, rfl, rfl, rfl, rfl, rfl, rfl⟩

/-- Calls of the authority group leave the services' records alone. -/
theorem AuthorityOp.exec_stores [Timestamp τ] {op : AuthorityOp τ} {choice : Choice}
    {w w' : World τ} {res : Except JsError (op.Out τ)}
    (h : op.exec choice w = some (res, w')) : SameStores w w' := by
  have hstored : ∀ {β : Type} {r : Except JsError β × World τ} {res : Except JsError β},
      SameStores w r.2 → stored choice w r = some (res, w') → SameStores w w' := by
    intro β r res hr hs
    rcases stored_cases hs with ⟨-, rfl⟩ | ⟨_, -, rfl | rfl⟩
    · exact hr
    · exact hr
    · exact SameStores.refl _
  have hunchanged : SameStores w w := SameStores.refl w
  cases op with
  | now | isVerified | hasBinding | isIssued | mint | issue | consume | pushRef | resolvedRefs
  | bindCredential | keyMemory =>
    rw [(computed_ok h).2]
    exact ⟨rfl, rfl, rfl, rfl, rfl, rfl, rfl, rfl, rfl, rfl, rfl, rfl⟩
  | uuid =>
    rw [(AuthorityOp.exec_uuid h).1]
    exact hunchanged
  | randomBytes =>
    rw [AuthorityOp.exec_randomBytes h]
    exact hunchanged
  | authorize =>
    simp only [AuthorityOp.exec] at h
    split at h
    · cases h
      exact hunchanged
    · cases h
  | checkCredential p capability resource =>
    simp only [AuthorityOp.exec] at h
    split at h
    · exact hstored hunchanged h
    · rw [(computed_ok h).2]
      exact hunchanged
  | recordEvidence row =>
    simp only [AuthorityOp.exec] at h
    split at h
    · refine hstored ?_ h
      split <;> exact ⟨rfl, rfl, rfl, rfl, rfl, rfl, rfl, rfl, rfl, rfl, rfl, rfl⟩
    · obtain ⟨r, hr, heq⟩ := Option.map_eq_some_iff.mp h
      cases heq
      rw [(computed_ok hr).2]
      exact hunchanged
  | getEvidence | findByDecision | putEvidence | listKeyAudit =>
    exact hstored ⟨rfl, rfl, rfl, rfl, rfl, rfl, rfl, rfl, rfl, rfl, rfl, rfl⟩ h

/-- No call moves the clock. -/
theorem exec_clock [Timestamp τ] {op : AppOp τ} {choice : Choice} {w w' : World τ}
    {res : Except JsError (op.Out τ)} (h : op.exec choice w = some (res, w')) :
    w'.clock = w.clock := by
  have hstored : ∀ {β : Type} {r : Except JsError β × World τ} {res : Except JsError β},
      r.2.clock = w.clock → stored choice w r = some (res, w') → w'.clock = w.clock := by
    intro β r res hr hs
    rcases stored_cases hs with ⟨-, rfl⟩ | ⟨_, -, rfl | rfl⟩
    · exact hr
    · exact hr
    · rfl
  cases op with
  | authority o => exact (o.exec_stores h).clock
  | jobs o => exact hstored rfl h
  | schedules o => exact hstored rfl h
  | webhooks o => exact hstored rfl h
  | notifications o => exact hstored rfl h
  | apiKeys o => exact hstored rfl h
  | configuration o => exact hstored rfl h
  | secretMetadata o => exact hstored rfl h
  | audit o => cases o <;> exact hstored rfl h
  | commit ops =>
    refine hstored ?_ h
    split
    · next w₁ hall =>
      refine applyAll_rel (R := fun w w' => w'.clock = w.clock) (fun _ => rfl)
        (fun h₁ h₂ => h₂.trans h₁) (fun op _ w w' hop => ?_) hall
      cases op <;> simp only [TransactionOperation.apply, Option.map_eq_some_iff] at hop
      case jobAudit | webhookAudit | notificationAudit =>
        cases hop
        rfl
      all_goals
        obtain ⟨t, -, rfl⟩ := hop
        rfl
    · rfl
  | host o => rw [o.exec_world h]

/-- The platform of a family of entry points over the shared world. -/
abbrev appPlatform [Timestamp τ] {Call Ret Env : Type} (body : Call → Svc τ Ret)
    (env : Env → World τ → Option (World τ)) : Platform where
  sig := services τ
  World := World τ
  Choice := Choice
  exec := AppOp.exec
  Env := Env
  env := env
  Call := Call
  Ret := Ret
  body := body

/-! ## The calls, as the services write them -/

section calls

def now : Svc τ τ := Task.perform (S := services τ) (.authority .now)

def randomUUID : Svc τ String := Task.perform (S := services τ) (.authority .uuid)

def JobOp.perform (op : JobOp τ) : Svc τ (op.Out τ) := Task.perform (S := services τ) (.jobs op)

def ScheduleOp.perform (op : ScheduleOp τ) : Svc τ (op.Out τ) :=
  Task.perform (S := services τ) (.schedules op)

def WebhookOp.perform (op : WebhookOp τ) : Svc τ (op.Out τ) :=
  Task.perform (S := services τ) (.webhooks op)

def NotificationOp.perform (op : NotificationOp τ) : Svc τ (op.Out τ) :=
  Task.perform (S := services τ) (.notifications op)

def ApiKeyOp.perform (op : ApiKeyOp τ) : Svc τ (op.Out τ) :=
  Task.perform (S := services τ) (.apiKeys op)

def ConfigurationOp.perform (op : ConfigurationOp τ) : Svc τ (op.Out τ) :=
  Task.perform (S := services τ) (.configuration op)

def SecretMetadataOp.perform (op : SecretMetadataOp) : Svc τ op.Out :=
  Task.perform (S := services τ) (.secretMetadata op)

def AuthorityOp.perform (op : AuthorityOp τ) : Svc τ (op.Out τ) :=
  Task.perform (S := services τ) (.authority op)

def HostOp.perform (op : HostOp τ) : Svc τ (op.Out τ) := Task.perform (S := services τ) (.host op)

/-- `builder.commit(db)`: nothing queued, nothing done. -/
def commit (operations : List (TransactionOperation τ)) : Svc τ Unit :=
  if operations.isEmpty then pure ()
  else Task.perform (S := services τ) (.commit operations)

def AuditOp.perform (op : AuditOp τ) : Svc τ Unit := Task.perform (S := services τ) (.audit op)

/-- A pure check that may throw, inside a service function. -/
def check {α : Type} (r : Except JsError α) : Svc τ α := Task.ofExcept r

end calls

end AppPort
