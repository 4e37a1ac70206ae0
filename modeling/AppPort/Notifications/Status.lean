import AppPort.Lib.Trace
import AppPort.Notifications.Records

/-!
# Status — a notification summarizes its deliveries

Delivery attempts on any number of channels, retries by hand, the recipient's own changes
and expiry, in any interleaving. Every attempt that settles lists the deliveries and writes
what they say into the notification, under the version it read, up to five times.

An attempt that stored `delivered` owes the notification a status. The phases say who owes
one, and what it has listed and read so far.
-/

namespace AppPort

open Effects Effects.Platform NotificationService

variable {τ : Type}

/-! ## The platform -/

inductive StatusEntry (τ : Type) where
  | attemptDelivery (tenantId deliveryId : String) (mode : AttemptMode)
  | retryDelivery (tenantId id channel : String) (caller : PrincipalInput) (legacy : LegacyPrincipal)
  /-- `markRead`, `acknowledge` and `dismiss`. -/
  | mutate (type : MutateType) (tenantId id : String) (caller : PrincipalInput)
      (legacy : LegacyPrincipal)
  | get (tenantId id : String) (caller : PrincipalInput) (legacy : LegacyPrincipal)

/-- The entry point changes notifications on behalf of the recipient. -/
def StatusEntry.isMutation : StatusEntry τ → Bool
  | .mutate .. => true
  | _ => false

structure StatusCall (τ : Type) where
  service : NotificationService τ
  entry : StatusEntry τ

section platform

variable [Timestamp τ]

def statusBody (call : StatusCall τ) : Svc τ Unit :=
  match call.entry with
  | .attemptDelivery tenantId deliveryId mode =>
    (call.service.attemptDelivery tenantId deliveryId mode).bind fun _ => pure ()
  | .retryDelivery tenantId id channel caller legacy =>
    (call.service.retryDelivery tenantId id channel caller legacy).bind fun _ => pure ()
  | .mutate type tenantId id caller legacy =>
    (call.service.mutate type tenantId id caller legacy).bind fun _ => pure ()
  | .get tenantId id caller legacy =>
    (call.service.get tenantId id caller legacy).bind fun _ => pure ()

/-- Time passes, and everything outside the notification stores changes freely. -/
abbrev statusPlatform (τ : Type) [Timestamp τ] : Platform :=
  appPlatform (statusBody (τ := τ)) deliveryEnv

/-! ## What is claimed -/

omit [Timestamp τ] in
/-- The status does not yet say that something was delivered. -/
def Notification.isUnsettled (item : Notification τ) : Bool :=
  item.status == .pending || item.status == .failed

/-- The deliveries of the notification. -/
def deliveriesOf (w : World τ) (item : Notification τ) : List (NotificationDelivery τ) :=
  w.notifications.deliveries.find fun d =>
    d.tenantId == item.tenantId && d.notificationId == item.id

def anyDelivered (deliveries : List (NotificationDelivery τ)) : Bool :=
  deliveries.any fun delivery => delivery.status == .delivered

def allFailed (deliveries : List (NotificationDelivery τ)) : Bool :=
  deliveries.all fun delivery => delivery.status == .failed

/-- Where some delivery is delivered, the notification is neither pending nor failed. -/
def summarizes (id : String) (w : World τ) : Bool :=
  (w.notifications.notifications.get id).all fun item =>
    !(item.isUnsettled && anyDelivered (deliveriesOf w item))

/-- The notification becomes failed when every delivery is. -/
def failsRightly (id : String) (_ : (statusPlatform τ).History) : (statusPlatform τ).Event → Bool
  | .ran _ step =>
    match step.before.notifications.notifications.get id,
      step.after.notifications.notifications.get id with
    | some item, some item' => item.status == .failed || item'.status != .failed ||
        allFailed (deliveriesOf step.before item)
    | _, _ => true
  | .stopped _ _ => true

/-- Only the recipient overwrites `read`, `acknowledged` and `expired`. -/
def keepsFinal (id : String) (_ : (statusPlatform τ).History) : (statusPlatform τ).Event → Bool
  | .ran _ step => step.call.entry.isMutation ||
      (step.before.notifications.notifications.get id).all fun item =>
        item.isUnsettled || item.status == .delivered ||
          (step.after.notifications.notifications.get id).any fun item' => item'.status == item.status
  | .stopped _ _ => true

/-! ## What it rests on -/

/-- The step stored a delivery as delivered. -/
def deliversStep : (statusPlatform τ).Step → Bool
  | ⟨_, .notifications (.updateDelivery _ id _ _), _, before, after⟩ =>
    (after.notifications.deliveries.get id).any (fun d => d.status == .delivered) &&
      !(before.notifications.deliveries.get id).any (fun d => d.status == .delivered)
  | _ => false

/-- From the write of `delivered` on, the calls of the attempt go through. -/
def reportsThrough (past : (statusPlatform τ).History) : (statusPlatform τ).Event → Bool
  | .ran pid step => !(step :: ownSteps pid past).any deliversStep || step.res.isOk
  | .stopped _ _ => true

/-- A delivery of the notification that had failed is put back. -/
def reopens (id : String) (step : (statusPlatform τ).Step) : Bool :=
  (step.before.notifications.deliveries.find fun d => d.isOf id && d.status == .failed).any fun d =>
      !(step.after.notifications.deliveries.get d.id).any fun d' => d'.status == .failed

def listsDeliveries : (statusPlatform τ).Step → Bool
  | ⟨_, .notifications (.listDeliveries _ _), _, _, _⟩ => true
  | _ => false

/-- A delivery was put back since the process listed the deliveries. -/
def reopenedSince (pid : Nat) (id : String) : (statusPlatform τ).History → Bool
  | [] => false
  | .ran q step :: past =>
    if q = pid ∧ listsDeliveries step then false else reopens id step || reopenedSince pid id past
  | .stopped _ _ :: past => reopenedSince pid id past

/-- What a process listed before it writes `failed` still stands. -/
def snapshotStands (id : String) (past : (statusPlatform τ).History) :
    (statusPlatform τ).Event → Bool
  | .ran pid ⟨_, .notifications (.updateNotification n _ u), _, _, _⟩ =>
    !(n == id && u.status == some .failed && reopenedSince pid id past)
  | _ => true

/-- **The status summarizes the deliveries.** -/
structure StatusSummarizes (id : String) (c : (statusPlatform τ).Config) : Prop where
  summarizes : allReturned c = true → summarizes id c.world = true
  fails : Always (failsRightly id) c.past
  keeps : Always (keepsFinal id) c.past

/-! ## Phases -/

inductive StatusPhase (τ : Type) where
  | idle
  /-- It holds this delivery, and the notification it read for it. -/
  | holds (delivery : NotificationDelivery τ) (item : Option (Notification τ))
  /-- It has stored `delivered` for the notification. -/
  | owes (item : Notification τ)
  /-- It has listed a delivered delivery, and makes this many attempts to say so. -/
  | telling (tenantId id : String) (attempts : Nat)
  /-- It has read the notification for one of them. -/
  | tells (id : String) (attempts : Nat) (item : Notification τ)
  /-- It owes nothing, has listed these deliveries and read this notification. -/
  | sums (tenantId id : String) (deliveries : List (NotificationDelivery τ))
      (item : Option (Notification τ))
  | lost

/-- The notification a process owes a status. -/
def StatusPhase.owed : StatusPhase τ → Option String
  | .owes item => some item.id
  | .telling _ id (_ + 1) | .tells id _ _ => some id
  | _ => none

/-- The changes a process makes to a notification it has read. -/
inductive StatusChange (call : StatusCall τ) (deliveries : List (NotificationDelivery τ))
    (item : Notification τ) (u : NotificationUpdate τ) : Prop where
  | deliver (h : item.isUnsettled = true) (hu : u.status = some .delivered)
  | fail (h : item.status = .pending) (hsome : deliveries ≠ []) (hall : allFailed deliveries = true)
      (hu : u.status = some .failed) (hdismissed : u.dismissedAt = none)
  | expire (h : canExpire item = true) (hu : u.status = some .expired)
  | mutate (type : MutateType) (t : τ) (hcall : call.entry.isMutation = true)
      (hu : type.change item t = some u)

/-- The phase once a delivery is read. -/
def StatusPhase.afterDelivery : Except JsError (Option (NotificationDelivery τ)) → StatusPhase τ
  | .ok (some delivery) => if delivery.status = .delivered then .idle else .holds delivery none
  | _ => .idle

/-- The phase once the notification of a delivery that is held is read. -/
def StatusPhase.withItem (delivery : NotificationDelivery τ) :
    Except JsError (Option (Notification τ)) → StatusPhase τ
  | .ok (some item) =>
    if item.tenantId = delivery.tenantId then .holds delivery (some item) else .holds delivery none
  | _ => .holds delivery none

/-- The phase once a delivery is written. -/
def StatusPhase.written (u : NotificationDeliveryUpdate τ) (item : Option (Notification τ)) :
    Except JsError (Option (NotificationDelivery τ)) → StatusPhase τ
  | .ok (some delivery) =>
    if u.status = some .delivered then
      match item with
      | some item => if delivery.status = .delivered then .owes item else .lost
      | none => .lost
    else .holds delivery item
  | _ => .idle

/-- The phase once the notification a status is owed to is read. -/
def StatusPhase.told (tenantId id : String) (attempts : Nat) :
    Option (Notification τ) → StatusPhase τ
  | some item =>
    if item.tenantId = tenantId then
      if item.isUnsettled then .tells id attempts item else .idle
    else .lost
  | none => .idle

/-- **The protocol of one process.** -/
inductive StatusStep : StatusPhase τ → (statusPlatform τ).Step → StatusPhase τ → Prop where
  | plain {ph : StatusPhase τ} {step : (statusPlatform τ).Step} (hop : step.op.leavesRecords = true) :
    StatusStep ph step ph
  | astray {step : (statusPlatform τ).Step} : StatusStep .lost step .lost
  | breaks {ph : StatusPhase τ} {call : StatusCall τ} {op : AppOp τ} {e : JsError}
    {before after : World τ} (hph : ph.owed.isSome = true) :
    StatusStep ph ⟨call, op, .error e, before, after⟩ .lost
  | getDelivery {ph : StatusPhase τ} {call : StatusCall τ} {id : String}
    {res : Except JsError (Option (NotificationDelivery τ))} {before after : World τ}
    (hph : ph.owed = none) :
    StatusStep ph ⟨call, .notifications (.getDelivery id), res, before, after⟩ (.afterDelivery res)
  | readItem {call : StatusCall τ} {delivery : NotificationDelivery τ} {item : Option (Notification τ)}
    {res : Except JsError (Option (Notification τ))} {before after : World τ} :
    StatusStep (.holds delivery item)
      ⟨call, .notifications (.getNotification delivery.notificationId), res, before, after⟩
      (.withItem delivery res)
  | write {call : StatusCall τ} {tenantId : String} {delivery : NotificationDelivery τ}
    {item : Option (Notification τ)} {u : NotificationDeliveryUpdate τ}
    {res : Except JsError (Option (NotificationDelivery τ))} {before after : World τ}
    (hitem : u.status = some .delivered → item.isSome = true) :
    StatusStep (.holds delivery item)
      ⟨call, .notifications (.updateDelivery tenantId delivery.id delivery.version u), res, before,
        after⟩ (.written u item res)
  | list {ph : StatusPhase τ} {call : StatusCall τ} {tenantId id : String}
    {res : Except JsError (List (NotificationDelivery τ))} {before after : World τ}
    (hph : ph.owed = none) :
    StatusStep ph ⟨call, .notifications (.listDeliveries tenantId (some id)), res, before, after⟩
      (match res with | .ok deliveries => .sums tenantId id deliveries none | .error _ => .idle)
  /-- What an attempt that stored `delivered` lists has a delivered delivery. -/
  | listOwing {call : StatusCall τ} {item : Notification τ} {deliveries : List (NotificationDelivery τ)}
    {before after : World τ} :
    StatusStep (.owes item)
      ⟨call, .notifications (.listDeliveries item.tenantId (some item.id)), .ok deliveries, before,
        after⟩
      (if anyDelivered deliveries then .telling item.tenantId item.id TRANSITION_ATTEMPTS else .lost)
  | read {ph : StatusPhase τ} {call : StatusCall τ} {id : String}
    {res : Except JsError (Option (Notification τ))} {before after : World τ} (hph : ph.owed = none) :
    StatusStep ph ⟨call, .notifications (.getNotification id), res, before, after⟩
      (match res with | .ok (some item) => .sums item.tenantId id [] (some item) | _ => .idle)
  | readListed {call : StatusCall τ} {tenantId id : String} {deliveries : List (NotificationDelivery τ)}
    {old : Option (Notification τ)} {res : Except JsError (Option (Notification τ))}
    {before after : World τ} :
    StatusStep (.sums tenantId id deliveries old)
      ⟨call, .notifications (.getNotification id), res, before, after⟩
      (.sums tenantId id deliveries (match res with
        | .ok (some item) => if item.tenantId = tenantId then some item else none
        | _ => none))
  | readOwing {call : StatusCall τ} {tenantId id : String} {attempts : Nat}
    {found : Option (Notification τ)} {before after : World τ} :
    StatusStep (.telling tenantId id (attempts + 1))
      ⟨call, .notifications (.getNotification id), .ok found, before, after⟩
      (.told tenantId id attempts found)
  | tell {call : StatusCall τ} {id : String} {attempts : Nat} {item : Notification τ} {u : NotificationUpdate τ}
    {updated : Option (Notification τ)} {before after : World τ} (hu : u.status = some .delivered) :
    StatusStep (.tells id attempts item)
      ⟨call, .notifications (.updateNotification item.id item.version u), .ok updated, before, after⟩
      (match updated with | some _ => .idle | none => .telling item.tenantId id attempts)
  | change {call : StatusCall τ} {tenantId id : String} {deliveries : List (NotificationDelivery τ)}
    {item : Notification τ} {u : NotificationUpdate τ}
    {res : Except JsError (Option (Notification τ))} {before after : World τ}
    (hu : StatusChange call deliveries item u) :
    StatusStep (.sums tenantId id deliveries (some item))
      ⟨call, .notifications (.updateNotification item.id item.version u), res, before, after⟩
      (.sums tenantId id deliveries (some item))

/-- Who has stored `delivered` does not return before the notification was told. -/
abbrev statusProtocol (τ : Type) [Timestamp τ] : Discipline (statusPlatform τ) where
  Phase := StatusPhase τ
  start _ := .idle
  next := StatusStep
  final _ _ ph := ph.owed = none

/-! ## Conformance -/

section conformance

variable {call : StatusCall τ} {ph : StatusPhase τ} {α : Type}

/-- Calls that leave every phase as it is. -/
def recordlessCalls : Set (AppOp τ) := {op | op.leavesRecords = true}

omit [Timestamp τ] in
theorem authority_recordless : (authorityCalls : Set (AppOp τ)) ⊆ recordlessCalls := by
  rintro op ⟨o, rfl⟩
  rfl

theorem recordless_idle (call : StatusCall τ) (ph : StatusPhase τ) :
    recordlessCalls ⊆ (statusProtocol τ).Idle call ph := fun _ hop _ _ _ _ _ => .plain hop

/-- The task keeps to the protocol, and owes nothing in the end. -/
def SumsUp (call : StatusCall τ) (t : Svc τ α) (ph : StatusPhase τ) : Prop :=
  (statusProtocol τ).Conforms call t ph (fun _ ph' => ph'.owed = none)

theorem settles_pure (hph : ph.owed = none) (a : α) : SumsUp call (pure a) ph := hph

theorem settles_throw (hph : ph.owed = none) (e : JsError) : SumsUp call (throw e : Svc τ α) ph := hph

theorem SumsUp.bind {β : Type} {t : Svc τ α} {f : α → Svc τ β} (ht : SumsUp call t ph)
    (hf : ∀ a ph', ph'.owed = none → SumsUp call (f a) ph') : SumsUp call (t.bind f) ph :=
  Discipline.Conforms.bind ht hf (fun _ _ h => h)

/-- Calls that leave the records alone, and then a task from the same phase. -/
theorem settles_quiet_bind {β : Type} {t : Svc τ α} {f : α → Svc τ β} (hph : ph.owed = none)
    (ht : Task.Uses (S := services τ) recordlessCalls t) (hf : ∀ a, SumsUp call (f a) ph) :
    SumsUp call (t.bind f) ph := by
  refine Discipline.Conforms.bind (Discipline.Conforms.of_idle (ht.mono (recordless_idle call ph)))
    ?_ ?_
  · rintro a ph' rfl
    exact hf a
  · rintro e ph' rfl
    exact hph

theorem settles_quiet {t : Svc τ α} (hph : ph.owed = none)
    (ht : Task.Uses (S := services τ) recordlessCalls t) : SumsUp call t ph :=
  Discipline.Conforms.mono (fun _ _ h => h ▸ hph)
    (Discipline.Conforms.of_idle (ht.mono (recordless_idle call ph)))

omit [Timestamp τ] in
theorem uses_recordless {t : Svc τ α} (h : Task.Uses (S := services τ) authorityCalls t) :
    Task.Uses (S := services τ) recordlessCalls t := h.mono authority_recordless

/-- Whoever is lost stays so. -/
theorem lost_settles : (t : Svc τ α) → SumsUp call t .lost
  | .settled _ => rfl
  | .await _ k => fun _ _ res _ _ => ⟨.lost, .astray, lost_settles (k res)⟩

/-- A call of one that owes a status: it goes through, or the status is lost. -/
theorem owing_perform (op : AppOp τ) (hph : ph.owed.isSome = true) (hop : op.leavesRecords = true) :
    (statusProtocol τ).Conforms call (Task.perform (S := services τ) op) ph
      (fun r ph' => match r with | .ok _ => ph' = ph | .error _ => ph' = .lost) := by
  refine Discipline.conforms_perform (D := statusProtocol τ) ?_
  intro choice before res after _
  cases res with
  | ok _ => exact ⟨ph, .plain hop, rfl⟩
  | error e => exact ⟨.lost, .breaks hph, rfl⟩

/-- A quiet call of one that owes a status, and what follows. -/
theorem owing_bind {β : Type} {op : AppOp τ} {f : op.Out τ → Svc τ β} (hph : ph.owed.isSome = true)
    (hop : op.leavesRecords = true) (hf : ∀ a, SumsUp call (f a) ph) :
    SumsUp call ((Task.perform (S := services τ) op).bind f) ph := by
  refine Discipline.Conforms.bind (owing_perform op hph hop) ?_ ?_
  · rintro a ph' rfl
    exact hf a
  · rintro e ph' rfl
    rfl

/-! ### Reading -/

theorem settles_storedDelivery (hph : ph.owed = none) (tenantId id : String) :
    (statusProtocol τ).Conforms call (storedDelivery tenantId id) ph
      (fun r ph' => ph'.owed = none ∧ ∀ delivery, r = .ok (some delivery) →
        delivery.tenantId = tenantId ∧ (delivery.status ≠ .delivered → ph' = .holds delivery none)) := by
  unfold storedDelivery
  refine Discipline.Conforms.await_bind (D := statusProtocol τ) ?_
  intro choice before res after _
  refine ⟨_, .getDelivery hph, ?_⟩
  match res with
  | .error e => exact ⟨rfl, fun _ h => by cases h⟩
  | .ok none => exact ⟨rfl, fun _ h => by cases h⟩
  | .ok (some stored) =>
    refine ⟨?_, fun delivery h => ?_⟩
    · unfold StatusPhase.afterDelivery
      dsimp only
      split <;> rfl
    · obtain ⟨hfound, htenant⟩ := Option.filter_eq_some_iff.mp (Except.ok.inj h)
      obtain rfl := Option.some.inj hfound
      exact ⟨by simpa using htenant, fun hstatus => if_neg hstatus⟩

theorem settles_lastDelivery (hph : ph.owed = none) (tenantId id : String) :
    SumsUp call (storedDelivery (τ := τ) tenantId id) ph :=
  Discipline.Conforms.mono (fun _ _ h => h.1) (settles_storedDelivery hph tenantId id)

/-- The notification is read, to be changed. -/
theorem settles_storedNotification (hph : ph.owed = none) (tenantId id : String) :
    (statusProtocol τ).Conforms call (storedNotification tenantId id) ph
      (fun r ph' => ph'.owed = none ∧ ∀ item, r = .ok (some item) →
        ph' = .sums item.tenantId id [] (some item)) := by
  unfold storedNotification
  refine Discipline.Conforms.await_bind (D := statusProtocol τ) ?_
  intro choice before res after _
  refine ⟨_, .read hph, ?_⟩
  match res with
  | .error e => exact ⟨rfl, fun _ h => by cases h⟩
  | .ok none => exact ⟨rfl, fun _ h => by cases h⟩
  | .ok (some stored) =>
    refine ⟨rfl, fun item h => ?_⟩
    obtain rfl := Option.some.inj (Option.filter_eq_some_iff.mp (Except.ok.inj h)).1
    rfl

omit [Timestamp τ] in
theorem recordless_ambient : NotificationAmbient (τ := τ) recordlessCalls where
  authority := authority_recordless
  audit _ := rfl
  schedules _ _ := rfl
  read _ := rfl

/-! ### The notification's own state -/

/-- The write of a change to the notification that was read, and what follows. -/
theorem settles_write {β : Type} {tenantId id : String} {deliveries : List (NotificationDelivery τ)}
    {item : Notification τ} {u : NotificationUpdate τ} {f : Option (Notification τ) → Svc τ β}
    (hu : StatusChange call deliveries item u)
    (hf : ∀ updated, SumsUp call (f updated) (.sums tenantId id deliveries (some item))) :
    SumsUp call ((NotificationOp.updateNotification item.id item.version u).perform.bind f)
      (.sums tenantId id deliveries (some item)) := by
  refine Discipline.Conforms.await_bind (D := statusProtocol τ) ?_
  intro choice before res after _
  refine ⟨_, .change hu, ?_⟩
  cases res with
  | ok updated => exact hf updated
  | error e => rfl

/-- A transition from anywhere, when its change needs no list. -/
theorem settles_transition {tenantId id : String}
    {change : Notification τ → Option (NotificationUpdate τ)} {type : Option String}
    (hchange : ∀ item u, change item = some u → StatusChange call [] item u) :
    (attempts : Nat) → {ph : StatusPhase τ} → ph.owed = none →
    SumsUp call (transitionNotification tenantId id change type attempts) ph
  | 0, _, hph => hph
  | attempts + 1, ph, hph => by
    unfold transitionNotification
    refine Discipline.Conforms.bind (settles_storedNotification hph tenantId id) ?_
      (fun _ _ h => h.1)
    rintro found ph' ⟨hrest, hread⟩
    cases found with
    | none => exact hrest
    | some item =>
      obtain rfl := hread item rfl
      dsimp only
      split
      · rfl
      next u hu =>
      refine settles_write (hchange item u hu) fun updated => ?_
      split
      · exact settles_quiet rfl (NotificationService.uses_audit recordless_ambient ..)
      · rfl
      · exact settles_transition hchange attempts rfl

omit [Timestamp τ] in
theorem isUnsettled_iff {item : Notification τ} :
    item.isUnsettled = true ↔ item.status = .pending ∨ item.status = .failed := by
  unfold Notification.isUnsettled
  simp

omit [Timestamp τ] in
theorem summarize_unsettled {deliveries : List (NotificationDelivery τ)} {t : τ}
    {item : Notification τ} (hitem : item.isUnsettled = true)
    (hdelivered : anyDelivered deliveries = true) : summarize deliveries t item =
      some { status := some .delivered, deliveredAt := some (some t), failedAt := some none } := by
  unfold summarize
  rw [if_neg]
  · exact if_pos hdelivered
  · rintro ⟨hpending, hfailed⟩
    rcases isUnsettled_iff.mp hitem with h | h
    · exact hpending h
    · exact hfailed h

omit [Timestamp τ] in
theorem summarize_settled {deliveries : List (NotificationDelivery τ)} {t : τ}
    {item : Notification τ} (hitem : item.isUnsettled = false) : summarize deliveries t item = none := by
  refine if_pos ⟨fun h => ?_, fun h => ?_⟩
  · rw [isUnsettled_iff.mpr (.inl h)] at hitem
    cases hitem
  · rw [isUnsettled_iff.mpr (.inr h)] at hitem
    cases hitem

omit [Timestamp τ] in
/-- What `refreshStatus` makes of its list is a change. -/
theorem statusChange_summarize {deliveries : List (NotificationDelivery τ)} {t : τ}
    {item : Notification τ} {u : NotificationUpdate τ} (h : summarize deliveries t item = some u) :
    StatusChange call deliveries item u := by
  unfold summarize at h
  split at h
  · cases h
  next hstatus =>
  have hunsettled : item.isUnsettled = true := isUnsettled_iff.mpr (by
    rw [not_and_or, not_not, not_not] at hstatus
    exact hstatus)
  split at h
  · cases h
    exact .deliver hunsettled rfl
  split at h
  · next hfailed =>
    cases h
    exact .fail hfailed.1 hfailed.2.1 hfailed.2.2 rfl rfl
  · cases h

/-- The notification is read, to be told what was listed. -/
theorem settles_readListed {tenantId id : String} {deliveries : List (NotificationDelivery τ)}
    {old : Option (Notification τ)} :
    (statusProtocol τ).Conforms call (storedNotification tenantId id)
      (.sums tenantId id deliveries old) (fun r ph' => ∃ found,
        ph' = .sums tenantId id deliveries found ∧ ∀ item, r = .ok (some item) → found = some item) := by
  unfold storedNotification
  refine Discipline.Conforms.await_bind (D := statusProtocol τ) ?_
  intro choice before res after _
  refine ⟨_, .readListed, ?_⟩
  match res with
  | .error e => exact ⟨_, rfl, fun _ h => by cases h⟩
  | .ok none => exact ⟨_, rfl, fun _ h => by cases h⟩
  | .ok (some stored) =>
    refine ⟨_, rfl, fun item h => ?_⟩
    obtain ⟨hfound, htenant⟩ := Option.filter_eq_some_iff.mp (Except.ok.inj h)
    obtain rfl := Option.some.inj hfound
    exact if_pos (by simpa using htenant)

/-- The transition of a settlement that owes nothing. -/
theorem settles_summary {tenantId id : String} {deliveries : List (NotificationDelivery τ)} {t : τ} :
    (attempts : Nat) → {old : Option (Notification τ)} →
    SumsUp call (transitionNotification tenantId id (summarize deliveries t) none attempts)
      (.sums tenantId id deliveries old)
  | 0, _ => rfl
  | attempts + 1, old => by
    unfold transitionNotification
    refine Discipline.Conforms.bind settles_readListed ?_ ?_
    · rintro found ph' ⟨read, rfl, hread⟩
      cases found with
      | none => rfl
      | some item =>
        obtain rfl := hread item rfl
        dsimp only
        split
        · rfl
        next u hu =>
        refine settles_write (statusChange_summarize hu) fun updated => ?_
        cases updated with
        | some updated => rfl
        | none => exact settles_summary attempts
    · rintro e ph' ⟨read, rfl, -⟩
      rfl

/-- The notification is read by one that owes it a status. -/
theorem settles_readOwing {tenantId id : String} {attempts : Nat} :
    (statusProtocol τ).Conforms call (storedNotification tenantId id)
      (.telling tenantId id (attempts + 1)) (fun r ph' => match r with
        | .ok (some item) => item.tenantId = tenantId ∧ ph' = .told tenantId id attempts (some item)
        | .ok none | .error _ => ph'.owed = none) := by
  unfold storedNotification
  refine Discipline.Conforms.await_bind (D := statusProtocol τ) ?_
  intro choice before res after _
  match res with
  | .error e => exact ⟨.lost, .breaks rfl, rfl⟩
  | .ok none => exact ⟨_, .readOwing, rfl⟩
  | .ok (some item) =>
    refine ⟨_, .readOwing, ?_⟩
    dsimp only
    by_cases htenant : item.tenantId = tenantId
    · have hfilter : (some item).filter (fun n : Notification τ => n.tenantId == tenantId) =
          some item := by simp [htenant]
      rw [hfilter]
      exact ⟨htenant, rfl⟩
    · have hfilter : (some item).filter (fun n : Notification τ => n.tenantId == tenantId) = none := by
        simp [htenant]
      rw [hfilter]
      show (StatusPhase.told tenantId id attempts (some item)).owed = none
      simp [StatusPhase.told, htenant, StatusPhase.owed]

/-- **The transition that is owed** goes on until the notification is told. -/
theorem settles_told {tenantId id : String} {deliveries : List (NotificationDelivery τ)} {t : τ}
    (hdelivered : anyDelivered deliveries = true) : (attempts : Nat) →
    SumsUp call (transitionNotification tenantId id (summarize deliveries t) none attempts)
      (.telling tenantId id attempts)
  | 0 => rfl
  | attempts + 1 => by
    unfold transitionNotification
    refine Discipline.Conforms.bind settles_readOwing ?_ (fun _ _ h => h)
    intro found ph' hread
    cases found with
    | none => exact hread
    | some item =>
      obtain ⟨rfl, rfl⟩ := hread
      dsimp only [StatusPhase.told]
      rw [if_pos rfl]
      by_cases hunsettled : item.isUnsettled = true
      · rw [if_pos hunsettled]
        rw [summarize_unsettled hunsettled hdelivered]
        dsimp only
        refine Discipline.Conforms.await_bind (D := statusProtocol τ) ?_
        intro choice before res after _
        rcases res with e | ⟨_ | updated⟩
        · exact ⟨.lost, .breaks rfl, rfl⟩
        · exact ⟨_, .tell rfl, settles_told hdelivered attempts⟩
        · exact ⟨_, .tell rfl, rfl⟩
      · rw [if_neg hunsettled]
        rw [summarize_settled (by simpa using hunsettled)]
        rfl

/-- `refreshStatus` of a settlement that owes nothing. -/
theorem settles_refreshStatus (hph : ph.owed = none) (tenantId id : String) :
    SumsUp call (refreshStatus (τ := τ) tenantId id) ph := by
  unfold refreshStatus
  refine Discipline.Conforms.await_bind (D := statusProtocol τ) ?_
  intro choice before res after _
  refine ⟨_, .list hph, ?_⟩
  cases res with
  | error e => rfl
  | ok deliveries =>
    exact settles_quiet_bind rfl (uses_recordless uses_now) fun t => settles_summary _

/-- `refreshStatus` of one that owes the notification. -/
theorem settles_refreshOwing (item : Notification τ) :
    SumsUp call (refreshStatus item.tenantId item.id) (.owes item) := by
  unfold refreshStatus
  refine Discipline.Conforms.await_bind (D := statusProtocol τ) ?_
  intro choice before res after _
  cases res with
  | error e => exact ⟨.lost, .breaks rfl, rfl⟩
  | ok deliveries =>
    refine ⟨_, .listOwing, ?_⟩
    dsimp only
    split
    · next hdelivered => exact owing_bind rfl rfl fun t => settles_told hdelivered _
    · exact lost_settles _

/-! ### Settling an attempt -/

section settling

variable (service : NotificationService τ)

/-- What follows a settlement that is no delivery. -/
theorem settles_afterSettlement (hph : ph.owed = none) (notification : Option (Notification τ))
    (type : String) (updated : NotificationDelivery τ) :
    SumsUp call (service.afterSettlement notification type updated) ph := by
  unfold NotificationService.afterSettlement
  refine settles_quiet_bind hph (service.uses_scheduleRetry recordless_ambient updated
    fun _ _ _ => rfl) fun _ => ?_
  refine SumsUp.bind ?_ fun _ _ hph' => hph'
  unfold NotificationService.reportSettlement
  split
  · exact hph
  · exact settles_quiet_bind hph (NotificationService.uses_audit recordless_ambient ..) fun _ => settles_refreshStatus hph _ _

/-- What follows the write of `delivered`. -/
theorem settles_afterDelivery (item : Notification τ) (type : String)
    {updated : NotificationDelivery τ} (hdelivered : updated.status = .delivered) :
    SumsUp call (service.afterSettlement (some item) type updated) (.owes item) := by
  have hretry : service.scheduleRetry updated = pure () := by
    unfold NotificationService.scheduleRetry
    rw [hdelivered]
  unfold NotificationService.afterSettlement
  rw [hretry]
  refine SumsUp.bind (t := NotificationService.reportSettlement (some item) type updated) ?_
    fun _ _ hph' => hph'
  refine Discipline.Conforms.bind (Q := fun r ph' => match r with
    | .ok _ => ph' = StatusPhase.owes item | .error _ => ph' = .lost) ?_ ?_ ?_
  · unfold audit
    refine (owing_perform (.authority .uuid) rfl rfl).bind ?_ (fun _ _ h => h)
    rintro id ph' rfl
    refine (owing_perform (.authority .now) rfl rfl).bind ?_ (fun _ _ h => h)
    rintro timestamp ph' rfl
    intro choice before res after _
    cases res with
    | ok _ => exact ⟨_, .plain rfl, rfl⟩
    | error e => exact ⟨.lost, .breaks rfl, rfl⟩
  · rintro _ ph' rfl
    exact settles_refreshOwing item
  · rintro e ph' rfl
    rfl

/-- **Settling an attempt.** One that delivered holds the notification it tells. -/
theorem settles_finishDelivery (delivery : NotificationDelivery τ) {found : Option (Notification τ)}
    (notification : Option (Notification τ)) (result : NotificationDeliveryResult)
    (hitem : result.isDelivered = true → ∃ item, found = some item ∧ notification = some item) :
    SumsUp call (service.finishDelivery delivery notification result) (.holds delivery found) := by
  unfold NotificationService.finishDelivery
  refine settles_quiet_bind rfl (uses_recordless uses_now) fun t => ?_
  refine Discipline.Conforms.bind (Q := fun r ph' => ph' = StatusPhase.holds delivery found ∧
    ∀ u, r = .ok u → u.1.Settles delivery result.isDelivered) ?_ ?_ ?_
  · exact (Discipline.Conforms.of_idle ((service.uses_settlementUpdate recordless_ambient delivery t result).mono
      (recordless_idle call _))).yields (service.yields_settlementUpdate delivery t result)
  · rintro ⟨u, type⟩ ph' ⟨rfl, hsettles⟩
    obtain ⟨status, hu, -, hiff, -⟩ := (hsettles _ rfl).status
    refine Discipline.Conforms.await_bind (D := statusProtocol τ) ?_
    intro choice before res after _
    refine ⟨_, .write fun hdelivered => ?_, ?_⟩
    · rw [hu] at hdelivered
      obtain ⟨item, rfl, -⟩ := hitem (hiff.mp (Option.some.inj hdelivered))
      rfl
    match res with
    | .error e => rfl
    | .ok none => exact settles_lastDelivery rfl _ _
    | .ok (some updated) =>
      dsimp only [StatusPhase.written]
      by_cases hdelivered : u.status = some .delivered
      · rw [if_pos hdelivered]
        rw [hu] at hdelivered
        obtain ⟨item, rfl, rfl⟩ := hitem (hiff.mp (Option.some.inj hdelivered))
        dsimp only
        split
        · next hstored => exact settles_afterDelivery service item type hstored
        · exact lost_settles _
      · rw [if_neg hdelivered]
        exact settles_afterSettlement service rfl notification type updated
  · rintro e ph' ⟨rfl, -⟩
    rfl

/-! ### The attempt -/

theorem recordless_deliver (notification : Notification τ) (claimed : NotificationDelivery τ) :
    Task.Uses (S := services τ) recordlessCalls (deliver notification claimed) := by
  unfold deliver
  refine Task.Uses.tryCatch ?_ fun _ => trivial
  refine Task.Uses.bind (uses_recordless (NotificationService.uses_view notification)) fun viewed => ?_
  exact Task.Uses.bind (Task.uses_perform rfl) fun _ => Task.uses_perform rfl

theorem settles_claimAndDeliver (tenantId : String) (delivery : NotificationDelivery τ)
    (item : Notification τ) (t : τ) :
    SumsUp call (service.claimAndDeliver tenantId delivery item t) (.holds delivery (some item)) := by
  unfold NotificationService.claimAndDeliver
  refine Discipline.Conforms.await_bind (D := statusProtocol τ) ?_
  intro choice before res after _
  refine ⟨_, .write nofun, ?_⟩
  match res with
  | .error e => rfl
  | .ok none => exact settles_lastDelivery rfl _ _
  | .ok (some claimed) =>
    refine settles_quiet_bind rfl (recordless_deliver item claimed) fun result => ?_
    exact settles_finishDelivery service claimed (some item) result fun _ => ⟨item, rfl, rfl⟩

/-- The notification of a delivery that is held is read. -/
theorem settles_readItem {tenantId : String} {delivery : NotificationDelivery τ}
    (htenant : delivery.tenantId = tenantId) :
    (statusProtocol τ).Conforms call (storedNotification tenantId delivery.notificationId)
      (.holds delivery none) (fun r ph' => ∃ found, ph' = .holds delivery found ∧
        ∀ item, r = .ok (some item) → found = some item) := by
  unfold storedNotification
  refine Discipline.Conforms.await_bind (D := statusProtocol τ) ?_
  intro choice before res after _
  refine ⟨_, .readItem, ?_⟩
  match res with
  | .error e => exact ⟨none, rfl, fun _ h => by cases h⟩
  | .ok none => exact ⟨none, rfl, fun _ h => by cases h⟩
  | .ok (some stored) =>
    by_cases hstored : stored.tenantId = delivery.tenantId
    · refine ⟨some stored, if_pos hstored, fun item h => ?_⟩
      exact (Option.filter_eq_some_iff.mp (Except.ok.inj h)).1
    · refine ⟨none, if_neg hstored, fun item h => ?_⟩
      obtain ⟨hfound, hitem⟩ := Option.filter_eq_some_iff.mp (Except.ok.inj h)
      obtain rfl := Option.some.inj hfound
      exact absurd (by simpa [htenant] using hitem) hstored

omit [Timestamp τ] in
/-- The change of an attempt that comes too late. -/
theorem statusChange_expired {t : τ} {item : Notification τ} {u : NotificationUpdate τ}
    (h : (if canExpire item then some { status := some .expired, expiredAt := some (some t) }
      else none : Option (NotificationUpdate τ)) = some u) : StatusChange call [] item u := by
  split at h
  · next hexpire =>
    cases h
    exact .expire hexpire rfl
  · cases h

theorem settles_attemptUnleased (tenantId : String) (delivery : NotificationDelivery τ)
    (htenant : delivery.tenantId = tenantId) (t : τ) :
    SumsUp call (service.attemptUnleased tenantId delivery t) (.holds delivery none) := by
  have hreject : ∀ (found notification : Option (Notification τ)) (reason : String),
      SumsUp call (service.finishDelivery delivery notification (.failed reason (some false)))
        (.holds delivery found) := by
    intro found notification reason
    exact settles_finishDelivery service delivery notification _ fun h => by cases h
  unfold NotificationService.attemptUnleased
  refine Discipline.Conforms.bind (settles_readItem htenant) ?_ ?_
  · rintro item ph' ⟨found, rfl, hread⟩
    cases item with
    | none => exact hreject _ _ _
    | some item =>
      obtain rfl := hread item rfl
      dsimp only
      split
      · refine (hreject _ _ _).bind fun failed ph₁ hph₁ => ?_
        refine SumsUp.bind (settles_transition ?_ _ hph₁) fun _ _ hph₂ => hph₂
        exact fun _ _ h => statusChange_expired h
      split
      · exact hreject _ _ _
      · exact settles_claimAndDeliver service tenantId delivery item t
  · rintro e ph' ⟨found, rfl, -⟩
    rfl

theorem settles_attemptDelivery (hph : ph.owed = none) (tenantId deliveryId : String)
    (mode : AttemptMode) : SumsUp call (service.attemptDelivery tenantId deliveryId mode) ph := by
  unfold NotificationService.attemptDelivery
  refine Discipline.Conforms.bind (settles_storedDelivery hph tenantId deliveryId) ?_
    (fun _ _ h => h.1)
  rintro found ph' ⟨hrest, hread⟩
  cases found with
  | none => exact hrest
  | some delivery =>
    obtain ⟨htenant, hholds⟩ := hread delivery rfl
    dsimp only
    split
    · exact hrest
    next hstatus =>
    rw [hholds fun h => hstatus (.inl h)]
    refine settles_quiet_bind rfl (uses_recordless uses_now) fun t => ?_
    refine settles_quiet_bind rfl (Task.uses_settled _ _) fun cutoff => ?_
    split
    · rfl
    · exact settles_attemptUnleased service tenantId delivery htenant t

/-! ### Retrying by hand -/

theorem settles_retryFound (hph : ph.owed = none) (tenantId : String) (item : Notification τ)
    (channel principalId : String) :
    SumsUp call (service.retryFound tenantId item channel principalId) ph := by
  unfold NotificationService.retryFound
  refine Discipline.Conforms.bind (settles_storedDelivery hph tenantId _) ?_ (fun _ _ h => h.1)
  rintro found ph' ⟨hrest, hread⟩
  cases found with
  | none => exact hrest
  | some delivery =>
    obtain ⟨-, hholds⟩ := hread delivery rfl
    dsimp only
    unfold NotificationService.retryStored
    split
    · exact hrest
    next hstatus =>
    rw [hholds (by rw [not_not.mp hstatus]; nofun)]
    refine settles_quiet_bind rfl (uses_recordless uses_now) fun t => ?_
    refine Discipline.Conforms.await_bind (D := statusProtocol τ) ?_
    intro choice before res after _
    refine ⟨_, .write nofun, ?_⟩
    match res with
    | .error e => rfl
    | .ok none => exact settles_lastDelivery rfl _ _
    | .ok (some retrying) =>
      refine settles_quiet_bind rfl (NotificationService.uses_audit recordless_ambient ..) fun _ => ?_
      refine SumsUp.bind ?_ fun _ _ hph₁ => settles_lastDelivery hph₁ _ _
      unfold NotificationService.attemptAgain
      split
      · exact settles_quiet rfl (NotificationService.uses_scheduleAttempt recordless_ambient _ _ _
          fun _ _ _ => rfl)
      · exact (settles_attemptDelivery service rfl _ _ _).bind fun _ _ hph₁ => hph₁

end settling

/-! ### Expiry, and the changes of the recipient -/

theorem settles_view (hph : ph.owed = none) (item : Notification τ) :
    SumsUp call (view item) ph := settles_quiet hph (uses_recordless (NotificationService.uses_view item))

omit [Timestamp τ] in
theorem recordless_expiryChange [Timestamp τ] (call : StatusCall τ) (item : Notification τ) :
    Task.Uses (S := services τ) recordlessCalls (expiryChange item) ∧
    Task.Yields (S := services τ) (fun u => ∀ u', u = some u' → StatusChange call [] item u')
      (expiryChange item) := by
  unfold expiryChange
  split
  · exact ⟨trivial, fun _ h => by cases h⟩
  · refine ⟨Task.Uses.bind (uses_recordless uses_now) fun t => ?_, Task.Yields.of_bind fun t => ?_⟩
    · split
      · exact Task.Uses.bind (uses_recordless uses_now) fun _ => trivial
      · trivial
    · split
      · next hexpires =>
        refine Task.Yields.of_bind fun t' => ?_
        intro u h
        cases h
        exact .expire hexpires.2 rfl
      · exact fun _ h => by cases h

theorem settles_transitionAtClock {tenantId id type : String} :
    (attempts : Nat) → {ph : StatusPhase τ} → ph.owed = none →
    SumsUp call (transitionAtClock tenantId id expiryChange type attempts) ph
  | 0, _, hph => hph
  | attempts + 1, ph, hph => by
    unfold transitionAtClock
    refine Discipline.Conforms.bind (settles_storedNotification hph tenantId id) ?_
      (fun _ _ h => h.1)
    rintro found ph' ⟨hrest, hread⟩
    cases found with
    | none => exact hrest
    | some item =>
      obtain rfl := hread item rfl
      dsimp only
      obtain ⟨huses, hyields⟩ := recordless_expiryChange call item
      refine Discipline.Conforms.bind ((Discipline.Conforms.of_idle (huses.mono
        (recordless_idle call _))).yields hyields) ?_ ?_
      · rintro u ph' ⟨rfl, hchange⟩
        cases u with
        | none => rfl
        | some u =>
          refine settles_write (hchange _ rfl u rfl) fun updated => ?_
          cases updated with
          | some updated => exact settles_quiet rfl (NotificationService.uses_audit recordless_ambient ..)
          | none => exact settles_transitionAtClock attempts rfl
      · rintro e ph' ⟨rfl, -⟩
        rfl

theorem settles_materialize (hph : ph.owed = none) (item : Notification τ) :
    SumsUp call (materialize item) ph := by
  unfold materialize
  split
  · exact settles_view hph item
  · refine settles_quiet_bind hph (uses_recordless uses_now) fun t => ?_
    split
    · refine (settles_transitionAtClock _ hph).bind fun _ ph₁ hph₁ => ?_
      refine settles_quiet_bind hph₁ (recordless_ambient.uses_storedNotification _ _) fun stored => ?_
      exact settles_view hph₁ _
    · exact settles_view hph item

theorem settles_mutateStored (hcall : call.entry.isMutation = true) {type : MutateType}
    {tenantId id principalId : String} {authorize : Notification τ → Except JsError Unit} :
    (attempts : Nat) → {ph : StatusPhase τ} → ph.owed = none →
    SumsUp call (mutateStored type tenantId id principalId authorize attempts) ph
  | 0, _, hph => hph
  | attempts + 1, ph, hph => by
    unfold mutateStored
    refine Discipline.Conforms.bind (settles_storedNotification hph tenantId id) ?_
      (fun _ _ h => h.1)
    rintro found ph' ⟨hrest, hread⟩
    cases found with
    | none => exact hrest
    | some item =>
      obtain rfl := hread item rfl
      dsimp only
      refine settles_quiet_bind rfl (Task.uses_settled _ _) fun _ => ?_
      refine settles_quiet_bind rfl (uses_recordless uses_now) fun t => ?_
      split
      · exact settles_materialize rfl item
      next u hu =>
      refine settles_write (.mutate type t hcall hu) fun updated => ?_
      cases updated with
      | some updated =>
        exact settles_quiet_bind rfl (NotificationService.uses_audit recordless_ambient ..) fun _ => settles_materialize rfl updated
      | none => exact settles_mutateStored hcall attempts rfl

/-! ### Every entry point keeps to it -/

/-- Around an effect that settles, the gateway does. -/
theorem settles_execute {gateway : ServiceGateway} {name : String} {input : PrincipalInput}
    {resource : ServiceResource} {options : ExecuteOptions}
    {effect : ServiceExecutionContext τ → EffectTools τ → Svc τ α} (hph : ph.owed = none)
    (heffect : ∀ context tools, SumsUp call (effect context tools) ph) :
    SumsUp call (gateway.execute name input resource options effect) ph :=
  conforms_execute
    (fun ph => gatewayCalls_subset.trans (authority_recordless.trans (recordless_idle call ph)))
    (fun _ => hph) heffect (fun _ _ h => h) (fun _ _ _ h _ => h) (fun _ _ h => h)

theorem settles_mutate (service : NotificationService τ) (hcall : call.entry.isMutation = true)
    (type : MutateType) (tenantId id : String) (caller : PrincipalInput) (legacy : LegacyPrincipal) :
    SumsUp call (service.mutate type tenantId id caller legacy) .idle := by
  unfold NotificationService.mutate
  split
  · refine settles_quiet_bind rfl (uses_recordless (uses_requireVerifiedPrincipal caller))
      fun principal => ?_
    refine settles_quiet_bind rfl (Task.uses_settled _ _) fun tenant => ?_
    refine settles_quiet_bind rfl (recordless_ambient.uses_storedNotification _ _) fun item => ?_
    split
    · rfl
    split
    · rfl
    exact settles_execute rfl fun _ _ => settles_mutateStored hcall _ rfl
  · refine settles_quiet_bind rfl (Task.uses_settled _ _) fun _ => ?_
    exact settles_mutateStored hcall _ rfl

theorem settles_retryDelivery (service : NotificationService τ) (tenantId id channel : String)
    (caller : PrincipalInput) (legacy : LegacyPrincipal) :
    SumsUp call (service.retryDelivery tenantId id channel caller legacy) .idle := by
  unfold NotificationService.retryDelivery
  split
  · refine settles_quiet_bind rfl (uses_recordless (uses_requireVerifiedPrincipal caller))
      fun principal => ?_
    refine settles_quiet_bind rfl (Task.uses_settled _ _) fun tenant => ?_
    refine settles_quiet_bind rfl (recordless_ambient.uses_storedNotification _ _) fun item => ?_
    split
    · rfl
    split
    · rfl
    exact settles_execute rfl fun _ _ => settles_retryFound service rfl _ _ _ _
  · refine settles_quiet_bind rfl (recordless_ambient.uses_storedNotification _ _) fun item => ?_
    split
    · rfl
    refine settles_quiet_bind rfl (Task.uses_settled _ _) fun _ => ?_
    exact settles_retryFound service rfl _ _ _ _

theorem settles_get (service : NotificationService τ) (tenantId id : String)
    (caller : PrincipalInput) (legacy : LegacyPrincipal) :
    SumsUp call (service.get tenantId id caller legacy) .idle := by
  unfold NotificationService.get
  refine settles_quiet_bind rfl (recordless_ambient.uses_storedNotification _ _) fun item => ?_
  split
  · rfl
  split
  · split
    · rfl
    refine settles_quiet_bind rfl (uses_recordless (uses_requireVerifiedPrincipal caller))
      fun principal => ?_
    refine settles_quiet_bind rfl (Task.uses_settled _ _) fun tenant => ?_
    refine SumsUp.bind (settles_execute rfl fun _ _ => settles_pure rfl ()) fun _ _ hph => ?_
    exact settles_materialize hph _
  · refine settles_quiet_bind rfl (Task.uses_settled _ _) fun _ => ?_
    exact settles_materialize rfl _

/-- **Every entry point keeps to the protocol.** -/
theorem statusProtocol_obeyed : (statusProtocol τ).Obeyed := by
  rintro ⟨service, entry⟩
  cases entry with
  | attemptDelivery tenantId deliveryId mode =>
    exact (settles_attemptDelivery service rfl tenantId deliveryId mode).bind fun _ _ hph => hph
  | retryDelivery tenantId id channel caller legacy =>
    exact (settles_retryDelivery service tenantId id channel caller legacy).bind fun _ _ hph => hph
  | mutate type tenantId id caller legacy =>
    exact (settles_mutate service rfl type tenantId id caller legacy).bind fun _ _ hph => hph
  | get tenantId id caller legacy =>
    exact (settles_get service tenantId id caller legacy).bind fun _ _ hph => hph

end conformance

end platform

end AppPort
