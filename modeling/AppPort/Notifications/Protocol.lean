import AppPort.Authority.Enforcement
import AppPort.Notifications.Footprint

/-!
# The protocol of delivery attempts

Any number of processes of any number of hosts create notifications and attempt their
deliveries, over one store: `notify` and `recoverDeliveries`, the delivery jobs, retries
by hand, and `attemptDelivery` itself in any mode. The phase of a process says what it
holds of the delivery it works on.
-/

namespace AppPort

open Effects Effects.Platform

variable {τ : Type}

/-! ## The platform -/

inductive DeliveryEntry (τ : Type) where
  | notify (input : NormalizedNotification τ) (createdBy : String) (applicationId : Option String)
      (branch : Nat)
  | attemptDelivery (tenantId deliveryId : String) (mode : AttemptMode)
  | recoverDeliveries (tenantId : String) (branch : Nat)
  | runDeliveryJob (job : Job τ)
  | retryDelivery (tenantId id channel : String) (caller : PrincipalInput)
      (legacy : NotificationService.LegacyPrincipal)

/-- The mode the entry point attempts deliveries in. -/
def DeliveryEntry.mode : DeliveryEntry τ → AttemptMode
  | .notify .. | .recoverDeliveries .. => .initial
  | .attemptDelivery _ _ mode => mode
  | .runDeliveryJob _ => .scheduled
  | .retryDelivery .. => .manual

/-- Deliveries are retried by hand. -/
def DeliveryEntry.isRetry : DeliveryEntry τ → Bool
  | .retryDelivery .. => true
  | _ => false

structure DeliveryCall (τ : Type) where
  service : NotificationService τ
  entry : DeliveryEntry τ

/-- What happens besides the calls. -/
inductive DeliveryEnv (τ : Type) where
  /-- Time passes. -/
  | tick (t : τ)
  /-- Anything that is not in the notification stores changes. -/
  | others (f : World τ → World τ)

section platform

variable [Timestamp τ]

def deliveryBody (call : DeliveryCall τ) : Svc τ Unit :=
  match call.entry with
  | .notify input createdBy applicationId branch =>
    (call.service.notifyInternal input createdBy applicationId branch).bind fun _ => pure ()
  | .attemptDelivery tenantId deliveryId mode =>
    (call.service.attemptDelivery tenantId deliveryId mode).bind fun _ => pure ()
  | .recoverDeliveries tenantId branch => call.service.recoverDeliveries tenantId branch
  | .runDeliveryJob job => call.service.runDeliveryJob job
  | .retryDelivery tenantId id channel caller legacy =>
    (call.service.retryDelivery tenantId id channel caller legacy).bind fun _ => pure ()

def deliveryEnv (move : DeliveryEnv τ) (w : World τ) : Option (World τ) :=
  match move with
  | .tick t => if w.clock ≤ t then some { w with clock := t } else none
  | .others f => some { f w with clock := w.clock, notifications := w.notifications }

abbrev deliveryPlatform (τ : Type) [Timestamp τ] : Platform :=
  appPlatform (deliveryBody (τ := τ)) deliveryEnv

/-! ## Phases -/

/-- The guards of `attemptDelivery` let the attempt go on. -/
def passesGuards (mode : AttemptMode) (delivery : NotificationDelivery τ) (t : τ) : Bool :=
  (delivery.status == .pending || delivery.status == .retrying) &&
    !NotificationService.comesEarly mode delivery t &&
    match Timestamp.before t ATTEMPT_LEASE_MS with
    | some leaseCutoff => !NotificationService.isLeased delivery leaseCutoff
    | none => false

/-- The update that claims a delivery. -/
def attemptClaim (delivery : NotificationDelivery τ) (t : τ) : NotificationDeliveryUpdate τ :=
  { attemptCount := some (delivery.attemptCount + 1), lastAttemptAt := some (some t) }

/-- The channel says it has delivered. -/
def NotificationDeliveryResult.isDelivered : NotificationDeliveryResult → Bool
  | .delivered _ => true
  | .failed _ _ => false

/-- The update settles an attempt on the delivery, as delivered or not: there is another
attempt only below the limit. -/
structure NotificationDeliveryUpdate.Settles (u : NotificationDeliveryUpdate τ)
    (delivery : NotificationDelivery τ) (delivered : Bool) : Prop where
  attemptCount : u.attemptCount = none
  maxAttempts : u.maxAttempts = none
  lastAttemptAt : u.lastAttemptAt = none
  status : ∃ status, u.status = some status ∧ status ≠ .pending ∧
    (status = .delivered ↔ delivered = true) ∧
    (status = .retrying → (delivery.attemptCount : Int) < delivery.maxAttempts)

/-- Where a process stands with a delivery. -/
inductive DeliveryPhase (τ : Type) where
  | idle
  /-- It read this record. -/
  | read (delivery : NotificationDelivery τ)
  /-- The record let it pass, at this time. -/
  | passed (delivery : NotificationDelivery τ) (t : τ)
  /-- It claimed the delivery; this is the record since. -/
  | claimed (delivery : NotificationDelivery τ)
  /-- The channel was invoked. -/
  | started (delivery : NotificationDelivery τ)
  /-- The channel settled. -/
  | answered (delivery : NotificationDelivery τ) (delivered : Bool)

/-- No attempt is under way. -/
def DeliveryPhase.Resting : DeliveryPhase τ → Prop
  | .idle | .read _ => True
  | _ => False

omit [Timestamp τ] in
theorem DeliveryPhase.Resting.idle : (DeliveryPhase.idle : DeliveryPhase τ).Resting := trivial

omit [Timestamp τ] in
theorem DeliveryPhase.Resting.read (delivery : NotificationDelivery τ) :
    (DeliveryPhase.read delivery).Resting := trivial

/-- Calls that neither read a single delivery nor change one, and start no channel. -/
def AppOp.leavesDeliveries : AppOp τ → Bool
  | .notifications (.getNotification _) | .notifications (.listNotifications _)
  | .notifications (.updateNotification ..) | .notifications (.listDeliveries ..) => true
  | .notifications _ | .host (.startChannel ..) | .host (.awaitChannel _) | .commit _ => false
  | _ => true

/-- A delivery as it is created. -/
structure FreshDelivery (item : Notification τ) (delivery : NotificationDelivery τ) : Prop where
  notificationId : delivery.notificationId = item.id
  status : delivery.status = .pending
  attemptCount : delivery.attemptCount = 0
  lastAttemptAt : delivery.lastAttemptAt = none

/-- **The protocol of one process.** -/
inductive DeliveryStep : DeliveryPhase τ → (deliveryPlatform τ).Step → DeliveryPhase τ → Prop where
  | plain {ph : DeliveryPhase τ} {step : (deliveryPlatform τ).Step}
    (hop : step.op.leavesDeliveries = true) : DeliveryStep ph step ph
  | get {ph : DeliveryPhase τ} {call : DeliveryCall τ} {id : String}
    {res : Except JsError (Option (NotificationDelivery τ))} {before after : World τ}
    (hph : ph.Resting) :
    DeliveryStep ph ⟨call, .notifications (.getDelivery id), res, before, after⟩
      (match res with | .ok (some delivery) => .read delivery | _ => .idle)
  /-- The guards. -/
  | guard {call : DeliveryCall τ} {delivery : NotificationDelivery τ} {t : τ}
    {before after : World τ} :
    DeliveryStep (.read delivery) ⟨call, .authority .now, .ok t, before, after⟩
      (if passesGuards call.entry.mode delivery t then .passed delivery t else .idle)
  | claim {call : DeliveryCall τ} {tenantId : String} {delivery : NotificationDelivery τ} {t : τ}
    {res : Except JsError (Option (NotificationDelivery τ))} {before after : World τ} :
    DeliveryStep (.passed delivery t)
      ⟨call, .notifications (.updateDelivery tenantId delivery.id delivery.version
        (attemptClaim delivery t)), res, before, after⟩
      (match res with | .ok (some claimed) => .claimed claimed | _ => .idle)
  /-- The attempt is given up before the channel is asked. -/
  | reject {call : DeliveryCall τ} {delivery : NotificationDelivery τ} {t : τ}
    {u : NotificationDeliveryUpdate τ} {res : Except JsError (Option (NotificationDelivery τ))}
    {before after : World τ} (hu : u.Settles delivery false) :
    DeliveryStep (.passed delivery t)
      ⟨call, .notifications (.updateDelivery delivery.tenantId delivery.id delivery.version u),
        res, before, after⟩ .idle
  | start {call : DeliveryCall τ} {item : Notification τ} {delivery : NotificationDelivery τ}
    {res : Except JsError Unit} {before after : World τ} :
    DeliveryStep (.claimed delivery) ⟨call, .host (.startChannel item delivery), res, before, after⟩
      (.started delivery)
  | settle {call : DeliveryCall τ} {delivery : NotificationDelivery τ}
    {res : Except JsError NotificationDeliveryResult} {before after : World τ} :
    DeliveryStep (.started delivery) ⟨call, .host (.awaitChannel delivery), res, before, after⟩
      (.answered delivery (match res with | .ok result => result.isDelivered | .error _ => false))
  | finish {call : DeliveryCall τ} {delivery : NotificationDelivery τ} {delivered : Bool}
    {u : NotificationDeliveryUpdate τ} {res : Except JsError (Option (NotificationDelivery τ))}
    {before after : World τ} (hu : u.Settles delivery delivered) :
    DeliveryStep (.answered delivery delivered)
      ⟨call, .notifications (.updateDelivery delivery.tenantId delivery.id delivery.version u),
        res, before, after⟩ .idle
  | retry {call : DeliveryCall τ} {tenantId : String} {delivery : NotificationDelivery τ} {t : τ}
    {res : Except JsError (Option (NotificationDelivery τ))} {before after : World τ}
    (hentry : call.entry.isRetry = true) (hstatus : delivery.status = .failed) :
    DeliveryStep (.read delivery)
      ⟨call, .notifications (.updateDelivery tenantId delivery.id delivery.version
        (call.service.retryUpdate delivery t)), res, before, after⟩ .idle
  | create {ph : DeliveryPhase τ} {call : DeliveryCall τ} {item : Notification τ}
    {deliveries : List (NotificationDelivery τ)} {res : Except JsError Unit} {before after : World τ}
    (hph : ph.Resting) (hfresh : ∀ delivery ∈ deliveries, FreshDelivery item delivery) :
    DeliveryStep ph ⟨call, .notifications (.commitNotification item deliveries), res, before, after⟩
      .idle
  /-- An orphan is deleted. -/
  | erase {ph : DeliveryPhase τ} {call : DeliveryCall τ} {id : String} {res : Except JsError Unit}
    {before after : World τ} (hph : ph.Resting) :
    DeliveryStep ph ⟨call, .notifications (.deleteDelivery id), res, before, after⟩ .idle

abbrev deliveryProtocol (τ : Type) [Timestamp τ] : Discipline (deliveryPlatform τ) where
  Phase := DeliveryPhase τ
  start _ := .idle
  next := DeliveryStep
  final _ _ _ := True

/-! ## Conformance -/

section conformance

variable {call : DeliveryCall τ} {ph : DeliveryPhase τ} {α : Type}

/-- Calls that leave every phase as it is. -/
def quietDeliveryCalls : Set (AppOp τ) := {op | op.leavesDeliveries = true}

omit [Timestamp τ] in
theorem authority_quietDelivery : (authorityCalls : Set (AppOp τ)) ⊆ quietDeliveryCalls := by
  rintro op ⟨o, rfl⟩
  rfl

theorem quietDelivery_idle (call : DeliveryCall τ) (ph : DeliveryPhase τ) :
    quietDeliveryCalls ⊆ (deliveryProtocol τ).Idle call ph :=
  fun _ hop _ _ _ _ _ => .plain hop

theorem authority_delivery (call : DeliveryCall τ) (ph : DeliveryPhase τ) :
    authorityCalls ⊆ (deliveryProtocol τ).Idle call ph :=
  authority_quietDelivery.trans (quietDelivery_idle call ph)

theorem delivers_quiet {t : Svc τ α} (ht : Task.Uses (S := services τ) quietDeliveryCalls t) :
    (deliveryProtocol τ).Conforms call t ph (fun _ ph' => ph' = ph) :=
  Discipline.Conforms.of_idle (ht.mono (quietDelivery_idle call ph))

/-- Quiet calls, and then a task from the same phase. -/
theorem delivers_quiet_bind {β : Type} {t : Svc τ α} {f : α → Svc τ β}
    {Q : Except JsError β → DeliveryPhase τ → Prop}
    (ht : Task.Uses (S := services τ) quietDeliveryCalls t) (herr : ∀ e, Q (.error e) ph)
    (hf : ∀ a, (deliveryProtocol τ).Conforms call (f a) ph Q) :
    (deliveryProtocol τ).Conforms call (t.bind f) ph Q := by
  refine Discipline.Conforms.bind (delivers_quiet ht) ?_ ?_
  · intro a ph' hph
    subst hph
    exact hf a
  · intro e ph' hph
    subst hph
    exact herr e

omit [Timestamp τ] in
theorem uses_quietDelivery {t : Svc τ α} (h : Task.Uses (S := services τ) authorityCalls t) :
    Task.Uses (S := services τ) quietDeliveryCalls t := h.mono authority_quietDelivery

/-- No attempt is under way when the task resolves. -/
def DeliversRest (call : DeliveryCall τ) (t : Svc τ α) (ph : DeliveryPhase τ) : Prop :=
  (deliveryProtocol τ).Conforms call t ph (fun r ph' => ∀ a, r = .ok a → ph'.Resting)

theorem DeliversRest.bind {β : Type} {t : Svc τ α} {f : α → Svc τ β} (ht : DeliversRest call t ph)
    (hf : ∀ a ph', ph'.Resting → DeliversRest call (f a) ph') :
    DeliversRest call (t.bind f) ph := by
  refine Discipline.Conforms.bind ht (fun a ph' hph => hf a ph' (hph a rfl)) ?_
  intro e ph' _ a h
  cases h

theorem DeliversRest.of {t : Svc τ α}
    (ht : (deliveryProtocol τ).Conforms call t ph (fun _ ph' => ph'.Resting)) :
    DeliversRest call t ph :=
  Discipline.Conforms.mono (fun _ _ h _ _ => h) ht

theorem deliversRest_quiet (hph : ph.Resting) {t : Svc τ α}
    (ht : Task.Uses (S := services τ) quietDeliveryCalls t) : DeliversRest call t ph :=
  Discipline.Conforms.mono (fun _ _ h _ _ => by rw [h]; exact hph) (delivers_quiet ht)

theorem deliversRest_pure (hph : ph.Resting) (a : α) : DeliversRest call (pure a) ph :=
  fun _ _ => hph

theorem deliversRest_throw (e : JsError) : DeliversRest call (throw e : Svc τ α) ph := by
  intro a h
  cases h

/-- A check that may throw, and what follows. -/
theorem deliversRest_check {β : Type} {r : Except JsError α} {f : α → Svc τ β}
    (hf : ∀ a, r = .ok a → DeliversRest call (f a) ph) :
    DeliversRest call ((check r).bind f) ph := by
  cases r with
  | ok a => exact hf a rfl
  | error e => exact deliversRest_throw e

/-- Reading one delivery. -/
theorem delivers_storedDelivery (hph : ph.Resting) (tenantId id : String) :
    (deliveryProtocol τ).Conforms call (storedDelivery tenantId id) ph
      (fun r ph' => ph'.Resting ∧ ∀ delivery, r = .ok (some delivery) → ph' = .read delivery) := by
  unfold storedDelivery
  refine Discipline.Conforms.await_bind ?_
  intro choice before res after _
  refine ⟨_, .get hph, ?_⟩
  match res with
  | .error e => exact ⟨trivial, fun _ h => by cases h⟩
  | .ok none => exact ⟨trivial, fun _ h => by cases h⟩
  | .ok (some stored) =>
    refine ⟨trivial, fun delivery h => ?_⟩
    have hfound := Except.ok.inj h
    rw [(Option.filter_eq_some_iff.mp hfound).1]

theorem deliversRest_storedDelivery (hph : ph.Resting) (tenantId id : String) :
    DeliversRest call (storedDelivery (τ := τ) tenantId id) ph :=
  .of (Discipline.Conforms.mono (fun _ _ h => h.1) (delivers_storedDelivery hph tenantId id))

/-! ### What is quiet -/

omit [Timestamp τ] in
theorem quietDelivery_working : NotificationWorking (τ := τ) quietDeliveryCalls where
  authority := authority_quietDelivery
  audit _ := rfl
  schedules _ _ := rfl
  read _ := rfl
  list _ _ := rfl
  update _ _ _ := rfl

omit [Timestamp τ] in
theorem quietDelivery_ambient : NotificationAmbient (τ := τ) quietDeliveryCalls :=
  quietDelivery_working.toNotificationAmbient

namespace NotificationService

variable (service : NotificationService τ)

/-- What a settlement writes. -/
theorem yields_settlementUpdate (delivery : NotificationDelivery τ) (t : τ)
    (result : NotificationDeliveryResult) :
    Task.Yields (S := services τ) (fun r => r.1.Settles delivery result.isDelivered)
      (service.settlementUpdate delivery t result) := by
  unfold settlementUpdate
  split
  · exact ⟨rfl, rfl, rfl, .delivered, rfl, by simp [NotificationDeliveryResult.isDelivered]⟩
  · split
    · next hretry =>
      have hlimit : (delivery.attemptCount : Int) < delivery.maxAttempts := by
        simp only [canRetry, Bool.and_eq_true, decide_eq_true_eq] at hretry
        exact hretry.2
      refine Task.Yields.of_bind fun t' => Task.Yields.of_bind fun next => ?_
      exact ⟨rfl, rfl, rfl, .retrying, rfl, by simp [NotificationDeliveryResult.isDelivered, hlimit]⟩
    · exact ⟨rfl, rfl, rfl, .failed, rfl, by simp [NotificationDeliveryResult.isDelivered]⟩

/-! ### The attempt -/

/-- Settling an attempt, from a phase that lets its update go out. -/
theorem deliversRest_finishDelivery {delivery : NotificationDelivery τ}
    {result : NotificationDeliveryResult}
    (hstep : ∀ u res before after, u.Settles delivery result.isDelivered → DeliveryStep ph
      ⟨call, .notifications (.updateDelivery delivery.tenantId delivery.id delivery.version u),
        res, before, after⟩ .idle)
    (notification : Option (Notification τ)) :
    DeliversRest call (service.finishDelivery delivery notification result) ph := by
  unfold finishDelivery
  refine delivers_quiet_bind (uses_quietDelivery uses_now) (fun e a h => by cases h) fun t => ?_
  refine Discipline.Conforms.bind (Q := fun r ph' => ph' = ph ∧
    ∀ u, r = .ok u → u.1.Settles delivery result.isDelivered) ?_ ?_ (fun e _ _ a h => by cases h)
  · exact (delivers_quiet (service.uses_settlementUpdate quietDelivery_ambient delivery t result)).yields
      (service.yields_settlementUpdate delivery t result)
  rintro ⟨u, type⟩ ph' ⟨rfl, hu⟩
  refine Discipline.Conforms.await_bind ?_
  intro choice before res after _
  refine ⟨.idle, hstep u res before after (hu _ rfl), ?_⟩
  match res with
  | .error e => exact fun a h => by cases h
  | .ok none => exact deliversRest_storedDelivery .idle _ _
  | .ok (some updated) => exact deliversRest_quiet .idle (uses_afterSettlement quietDelivery_working _ _ _ _ fun _ _ _ => rfl)

/-- The clock does not reject. -/
theorem delivers_view (item : Notification τ) : (deliveryProtocol τ).Conforms call (view item) ph
    (fun r ph' => ph' = ph ∧ ∃ a, r = .ok a) := by
  unfold view
  split
  · exact ⟨rfl, item, rfl⟩
  · refine Discipline.Conforms.await_bind ?_
    intro choice before res after hexec
    obtain ⟨rfl, -⟩ := computed_ok hexec
    exact ⟨ph, .plain rfl, rfl, _, rfl⟩

/-- The channel is invoked once, and whatever it does is an answer. -/
theorem delivers_deliver (item : Notification τ) (claimed : NotificationDelivery τ) :
    (deliveryProtocol τ).Conforms call (deliver item claimed) (.claimed claimed)
      (fun r ph' => ∃ result, r = .ok result ∧ ph' = .answered claimed result.isDelivered) := by
  unfold deliver
  refine Discipline.Conforms.tryCatch (D := deliveryProtocol τ) (Q := fun r ph' => ph' = .answered claimed
    (match r with | .ok result => result.isDelivered | .error _ => false)) ?_ ?_ ?_
  · refine (delivers_view item).bind ?_ ?_
    · rintro viewed ph' ⟨rfl, -⟩
      refine Discipline.Conforms.await_bind ?_
      intro choice before res after hexec
      obtain ⟨rfl, -⟩ := computed_ok hexec
      refine ⟨_, .start, ?_⟩
      refine Discipline.conforms_perform fun choice before res after _ => ⟨_, .settle, ?_⟩
      cases res <;> rfl
    · rintro e ph' ⟨-, a, ha⟩
      cases ha
  · intro result ph' hph
    exact ⟨result, rfl, hph⟩
  · intro e ph' hph
    exact ⟨_, rfl, hph⟩

theorem deliversRest_claimAndDeliver (tenantId : String) (delivery : NotificationDelivery τ)
    (item : Notification τ) (t : τ) :
    DeliversRest call (service.claimAndDeliver tenantId delivery item t) (.passed delivery t) := by
  unfold claimAndDeliver
  refine Discipline.Conforms.await_bind ?_
  intro choice before res after _
  refine ⟨_, .claim, ?_⟩
  match res with
  | .error e => exact fun a h => by cases h
  | .ok none => exact deliversRest_storedDelivery .idle _ _
  | .ok (some claimed) =>
    refine (delivers_deliver item claimed).bind ?_ ?_
    · rintro result ph' ⟨result', hr, rfl⟩
      obtain rfl := Except.ok.inj hr
      exact service.deliversRest_finishDelivery (fun u res before after hu => .finish hu) _
    · rintro e ph' ⟨result', hr, -⟩
      cases hr

theorem deliversRest_attemptUnleased (tenantId : String) (delivery : NotificationDelivery τ) (t : τ) :
    DeliversRest call (service.attemptUnleased tenantId delivery t) (.passed delivery t) := by
  have hreject : ∀ (notification : Option (Notification τ)) (reason : String),
      DeliversRest call (service.finishDelivery delivery notification (.failed reason (some false)))
        (.passed delivery t) := by
    intro notification reason
    refine service.deliversRest_finishDelivery ?_ notification
    intro u res before after hu
    exact .reject hu
  unfold attemptUnleased
  refine delivers_quiet_bind (quietDelivery_ambient.uses_storedNotification _ _) (fun e a h => by cases h) fun item => ?_
  match item with
  | none => exact hreject _ _
  | some item =>
    dsimp only
    split
    · refine (hreject _ _).bind fun failed ph' hph' => ?_
      refine (deliversRest_quiet hph' (uses_transitionNotification quietDelivery_working ..)).bind fun _ ph'' hph'' => ?_
      exact deliversRest_pure hph'' _
    split
    · exact hreject _ _
    · exact service.deliversRest_claimAndDeliver tenantId delivery item t

/-- The guards of `attemptDelivery`, as the phases have them. -/
theorem passesGuards_of (mode : AttemptMode) (delivery : NotificationDelivery τ) {t cutoff : τ}
    (hstatus : ¬(delivery.status = .delivered ∨ delivery.status = .failed))
    (hcutoff : Timestamp.before t ATTEMPT_LEASE_MS = some cutoff)
    (hguards : ¬(comesEarly mode delivery t || isLeased delivery cutoff) = true) :
    passesGuards mode delivery t = true := by
  unfold passesGuards
  rw [hcutoff]
  cases hs : delivery.status <;> simp_all

theorem deliversRest_attemptDelivery (hph : ph.Resting) (tenantId deliveryId : String) :
    DeliversRest call (service.attemptDelivery tenantId deliveryId call.entry.mode) ph := by
  unfold attemptDelivery
  refine (delivers_storedDelivery hph tenantId deliveryId).bind ?_ (fun e _ _ a h => by cases h)
  rintro delivery ph' ⟨hrest, hread⟩
  match delivery with
  | none => exact deliversRest_pure hrest none
  | some delivery =>
    obtain rfl := hread delivery rfl
    dsimp only
    split
    · exact deliversRest_pure hrest _
    next hstatus =>
    refine Discipline.Conforms.await_bind ?_
    intro choice before res after hexec
    obtain ⟨rfl, -⟩ := computed_ok hexec
    refine ⟨_, .guard, ?_⟩
    refine deliversRest_check fun cutoff hcutoff => ?_
    have hbefore : Timestamp.before before.clock ATTEMPT_LEASE_MS = some cutoff := by
      unfold earlierThan at hcutoff
      split at hcutoff
      · next t ht => exact (Except.ok.inj hcutoff) ▸ ht
      · cases hcutoff
    split
    · refine deliversRest_pure ?_ _
      split
      · next hguards hpass =>
        simp [passesGuards, hbefore] at hpass
        simp_all
      · trivial
    · next hguards =>
      rw [if_pos (passesGuards_of _ _ hstatus hbefore hguards)]
      exact service.deliversRest_attemptUnleased tenantId delivery before.clock

/-! ### Where attempts come from -/

theorem delivers_dispatch (hph : ph.Resting) (hmode : call.entry.mode = .initial)
    (delivery : NotificationDelivery τ) : (deliveryProtocol τ).Conforms call
      (service.dispatch delivery) ph (fun _ _ => True) := by
  unfold dispatch
  split
  · refine delivers_quiet_bind (uses_quietDelivery uses_now) (fun _ => trivial) fun t => ?_
    exact Discipline.Conforms.mono (fun _ _ _ => trivial)
      (delivers_quiet (uses_scheduleAttempt quietDelivery_ambient _ _ _ fun _ _ _ => rfl))
  · have hattempt : DeliversRest call
        (service.attemptDelivery delivery.tenantId delivery.id call.entry.mode) ph :=
      service.deliversRest_attemptDelivery hph delivery.tenantId delivery.id
    rw [hmode] at hattempt
    exact Discipline.Conforms.mono (fun _ _ _ => trivial)
      (Discipline.Conforms.ignore (Q := fun _ => True)
        (Discipline.Conforms.mono (fun _ _ _ => trivial) hattempt))

/-- The deliveries are listed, and one of them is dispatched. -/
theorem delivers_dispatchListed (hph : ph.Resting) (hmode : call.entry.mode = .initial)
    {list : Svc τ (List (NotificationDelivery τ))}
    (hlist : Task.Uses (S := services τ) quietDeliveryCalls list)
    (select : List (NotificationDelivery τ) → Option (NotificationDelivery τ)) :
    (deliveryProtocol τ).Conforms call (list.bind fun deliveries => match select deliveries with
      | none => pure ()
      | some delivery => service.dispatch delivery) ph (fun _ _ => True) := by
  refine delivers_quiet_bind hlist (fun _ => trivial) fun deliveries => ?_
  split
  · trivial
  · exact service.delivers_dispatch hph hmode _

omit [Timestamp τ] in
theorem uses_listDeliveries (tenantId : String) (notificationId : Option String) :
    Task.Uses (S := services τ) quietDeliveryCalls
      (NotificationOp.listDeliveries tenantId notificationId).perform := by
  exact Task.uses_perform rfl

theorem delivers_recoverDeliveries (hph : ph.Resting) (hmode : call.entry.mode = .initial)
    (tenantId : String) (branch : Nat) : (deliveryProtocol τ).Conforms call
      (service.recoverDeliveries tenantId branch) ph (fun _ _ => True) := by
  unfold recoverDeliveries
  refine delivers_quiet_bind (uses_quietDelivery uses_now) (fun _ => trivial) fun t => ?_
  refine delivers_quiet_bind (Task.uses_settled _ _) (fun _ => trivial) fun cutoff => ?_
  exact service.delivers_dispatchListed hph hmode (uses_listDeliveries _ _) _

/-! ### Creation -/

omit [Timestamp τ] in
theorem freshDelivery_record (item : Notification τ) (createdAt : τ) (channel : String) :
    FreshDelivery item (service.deliveryRecord item createdAt channel) :=
  ⟨rfl, rfl, rfl, rfl⟩

theorem deliversRest_orphanedDeliveries (deliveries : List (NotificationDelivery τ)) :
    ∀ {ph : DeliveryPhase τ}, ph.Resting → DeliversRest call (orphanedDeliveries deliveries) ph := by
  induction deliveries with
  | nil => exact fun hph => deliversRest_pure hph []
  | cons delivery rest ih =>
    intro ph hph
    unfold orphanedDeliveries
    refine Discipline.Conforms.await_bind ?_
    intro choice before res after _
    refine ⟨_, .get hph, ?_⟩
    rcases res with e | (_ | item)
    · intro a h
      cases h
    · have hrest : (DeliveryPhase.idle : DeliveryPhase τ).Resting := .idle
      exact (ih hrest).bind fun others ph' hph' => deliversRest_pure hph' _
    · have hrest : (DeliveryPhase.read item).Resting := .read item
      exact (ih hrest).bind fun others ph' hph' => deliversRest_pure hph' _

theorem deliversRest_createWithDeliveries (hph : ph.Resting) (item : Notification τ)
    {deliveries : List (NotificationDelivery τ)}
    (hfresh : ∀ delivery ∈ deliveries, FreshDelivery item delivery) :
    DeliversRest call (createWithDeliveries item deliveries) ph := by
  have hcommit : ∀ {ph : DeliveryPhase τ}, ph.Resting → (deliveryProtocol τ).Conforms call
      ((NotificationOp.commitNotification item deliveries).perform.bind fun _ => pure true) ph
      (fun _ ph' => ph'.Resting) := by
    intro ph hph
    refine Discipline.Conforms.await_bind fun choice before res after _ => ⟨_, .create hph hfresh, ?_⟩
    cases res <;> trivial
  unfold createWithDeliveries
  refine Discipline.Conforms.tryCatch (D := deliveryProtocol τ) (hcommit hph)
    (fun created ph' hph' _ _ => hph') ?_
  intro error ph' hph'
  refine delivers_quiet_bind (Task.uses_perform rfl) (fun e a h => by cases h) fun existing => ?_
  dsimp only
  split
  · exact deliversRest_pure hph' false
  refine (deliversRest_orphanedDeliveries deliveries hph').bind fun staleIds ph'' hph'' => ?_
  split
  · exact deliversRest_throw error
  refine DeliversRest.bind (.of (Discipline.Conforms.forEach (I := DeliveryPhase.Resting) ?_
    (fun _ h => h) staleIds hph'')) fun _ ph₃ hph₃ => .of (hcommit hph₃)
  intro id ph₃ hph₃
  refine Discipline.conforms_perform fun choice before res after _ => ⟨_, .erase hph₃, ?_⟩
  cases res <;> exact .idle

theorem delivers_notifyInternal (hph : ph.Resting) (hmode : call.entry.mode = .initial)
    (input : NormalizedNotification τ) (createdBy : String) (applicationId : Option String)
    (branch : Nat) : (deliveryProtocol τ).Conforms call
      (service.notifyInternal input createdBy applicationId branch) ph (fun _ _ => True) := by
  unfold notifyInternal
  refine delivers_quiet_bind (uses_quietDelivery uses_now) (fun _ => trivial) fun createdAt => ?_
  dsimp only
  split
  · trivial
  refine delivers_quiet_bind (service.uses_notificationId quietDelivery_ambient input)
    (fun _ => trivial) fun id => ?_
  refine Discipline.Conforms.bind (deliversRest_createWithDeliveries hph _ ?_) ?_
    (fun _ _ _ => trivial)
  · intro delivery hm
    obtain ⟨channel, -, rfl⟩ := List.mem_map.mp hm
    exact service.freshDelivery_record _ _ _
  intro created ph' hph'
  refine delivers_quiet_bind (uses_confirmCreation quietDelivery_ambient ..) (fun _ => trivial)
    fun _ => ?_
  refine Discipline.Conforms.bind (Q := fun _ _ => True) ?_ (fun _ _ _ => trivial)
    (fun _ _ _ => trivial)
  exact service.delivers_dispatchListed (hph' created rfl) hmode (uses_listDeliveries _ _) _

/-! ### Retrying by hand -/

theorem deliversRest_retryFound (hcall : call.service = service) (hentry : call.entry.isRetry = true)
    (hph : ph.Resting) (tenantId : String) (item : Notification τ) (channel principalId : String) :
    DeliversRest call (service.retryFound tenantId item channel principalId) ph := by
  unfold retryFound
  refine (delivers_storedDelivery hph _ _).bind ?_ (fun e _ _ a h => by cases h)
  rintro delivery ph' ⟨hrest, hread⟩
  match delivery with
  | none => exact deliversRest_throw _
  | some delivery =>
    obtain rfl := hread delivery rfl
    dsimp only
    unfold retryStored
    split
    · exact deliversRest_pure hrest _
    next hstatus =>
    refine delivers_quiet_bind (uses_quietDelivery uses_now) (fun e a h => by cases h) fun t => ?_
    refine Discipline.Conforms.await_bind ?_
    intro choice before res after _
    subst hcall
    refine ⟨_, .retry hentry (not_not.mp hstatus), ?_⟩
    match res with
    | .error e => exact fun a h => by cases h
    | .ok none => exact deliversRest_storedDelivery .idle _ _
    | .ok (some retrying) =>
      refine (deliversRest_quiet .idle (uses_audit quietDelivery_ambient ..)).bind fun _ ph₂ hph₂ => ?_
      refine DeliversRest.bind ?_ fun _ ph₃ hph₃ => deliversRest_storedDelivery hph₃ _ _
      have hmode : call.entry.mode = .manual := by
        cases hcall : call.entry <;> rw [hcall] at hentry <;> first | rfl | cases hentry
      unfold attemptAgain
      split
      · exact deliversRest_quiet hph₂ (uses_scheduleAttempt quietDelivery_ambient _ _ _ fun _ _ _ => rfl)
      · have hattempt : DeliversRest call
            (call.service.attemptDelivery tenantId retrying.id call.entry.mode) ph₂ :=
          call.service.deliversRest_attemptDelivery hph₂ tenantId retrying.id
        rw [hmode] at hattempt
        exact hattempt.bind fun _ ph₃ hph₃ => deliversRest_pure hph₃ ()

theorem delivers_retryDelivery (hcall : call.service = service) (hentry : call.entry.isRetry = true)
    (hph : ph.Resting) (tenantId id channel : String) (caller : PrincipalInput)
    (legacy : LegacyPrincipal) : (deliveryProtocol τ).Conforms call
      (service.retryDelivery tenantId id channel caller legacy) ph (fun _ _ => True) := by
  have hany : ∀ {t : Svc τ (Option (NotificationDelivery τ))}, DeliversRest call t ph →
      (deliveryProtocol τ).Conforms call t ph (fun _ _ => True) :=
    Discipline.Conforms.mono (fun _ _ _ => trivial)
  unfold retryDelivery
  split
  · refine delivers_quiet_bind (uses_quietDelivery (uses_requireVerifiedPrincipal caller))
      (fun _ => trivial) fun principal => ?_
    refine delivers_quiet_bind (Task.uses_settled _ _) (fun _ => trivial) fun tenant => ?_
    refine delivers_quiet_bind (quietDelivery_ambient.uses_storedNotification _ _) (fun _ => trivial) fun item => ?_
    split
    · trivial
    split
    · trivial
    refine conforms_execute (fun ph => gatewayCalls_subset.trans (authority_delivery call ph)) (fun _ => trivial)
      (fun context tools => hany (service.deliversRest_retryFound hcall hentry hph _ _ _ _))
      (fun _ _ _ => trivial) (fun _ _ _ _ _ => trivial) (fun _ _ _ => trivial)
  · refine delivers_quiet_bind (quietDelivery_ambient.uses_storedNotification _ _) (fun _ => trivial) fun item => ?_
    split
    · trivial
    refine delivers_quiet_bind (Task.uses_settled _ _) (fun _ => trivial) fun _ => ?_
    exact hany (service.deliversRest_retryFound hcall hentry hph _ _ _ _)

end NotificationService

/-- **Every entry point keeps to the protocol.** -/
theorem deliveryProtocol_obeyed : (deliveryProtocol τ).Obeyed := by
  have hdone : ∀ {α : Type} {call : DeliveryCall τ} {t : Svc τ α},
      (deliveryProtocol τ).Conforms call t .idle (fun _ _ => True) →
      (deliveryProtocol τ).Conforms call (t.bind fun _ => pure ()) .idle (fun _ _ => True) :=
    fun h => h.bind (fun _ _ _ => trivial) (fun _ _ _ => trivial)
  have hattempt : ∀ (call : DeliveryCall τ) (tenantId deliveryId : String),
      (deliveryProtocol τ).Conforms call
        (call.service.attemptDelivery tenantId deliveryId call.entry.mode) .idle (fun _ _ => True) :=
    fun call _ _ => Discipline.Conforms.mono (fun _ _ _ => trivial)
      (call.service.deliversRest_attemptDelivery .idle _ _)
  rintro ⟨service, entry⟩
  cases entry with
  | notify input createdBy applicationId branch =>
    exact hdone (service.delivers_notifyInternal .idle rfl input createdBy applicationId branch)
  | attemptDelivery tenantId deliveryId mode =>
    exact hdone (hattempt ⟨service, .attemptDelivery tenantId deliveryId mode⟩ tenantId deliveryId)
  | recoverDeliveries tenantId branch =>
    exact service.delivers_recoverDeliveries .idle rfl tenantId branch
  | runDeliveryJob job =>
    show (deliveryProtocol τ).Conforms _ (service.runDeliveryJob job) .idle _
    unfold NotificationService.runDeliveryJob
    split
    · next deliveryId _ =>
      exact hdone (hattempt ⟨service, .runDeliveryJob job⟩ job.tenantId deliveryId)
    · trivial
  | retryDelivery tenantId id channel caller legacy =>
    exact hdone (service.delivers_retryDelivery rfl rfl .idle tenantId id channel caller legacy)

end conformance

end platform

end AppPort
