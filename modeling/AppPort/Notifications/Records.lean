import AppPort.Notifications.Protocol
import AppPort.Notifications.Writes

/-!
# What a process knows of the delivery it works on

The base invariant of the notification service. A process holds a copy of a delivery;
under the version of the copy, what is stored is the copy. A delivery may be deleted, by
`createWithDeliveries` that takes it for an orphan, but no delivery comes back: its
notification stays, and is created only once.

`delivery_fate` says once what a step does to the delivery under one id. Whatever a
process writes, it writes to the very record it holds.
-/

namespace AppPort

open Effects Effects.Platform

variable {τ : Type}

/-! ## What the run created -/

section submitted

variable [Timestamp τ]

/-- The deliveries an event tries to create. -/
def submittedBy : (deliveryPlatform τ).Event → List (NotificationDelivery τ)
  | .ran _ ⟨_, .notifications (.commitNotification _ deliveries), _, _, _⟩ => deliveries
  | _ => []

/-- The deliveries the run tried to create. -/
def submitted (past : (deliveryPlatform τ).History) : List (NotificationDelivery τ) :=
  past.flatMap submittedBy

theorem submitted_cons (e : (deliveryPlatform τ).Event) (past : (deliveryPlatform τ).History)
    {delivery : NotificationDelivery τ} (h : delivery ∈ submitted past) :
    delivery ∈ submitted (e :: past) := by
  unfold submitted at *
  rw [List.flatMap_cons]
  exact List.mem_append_right _ h

/-- Deliveries of one id are of one notification: `stableUuid` keeps ids apart. -/
def keepsIds (past : (deliveryPlatform τ).History) (e : (deliveryPlatform τ).Event) : Prop :=
  ∀ new ∈ submittedBy e, ∀ old ∈ submitted past, old.id = new.id →
    old.notificationId = new.notificationId

instance (past : (deliveryPlatform τ).History) (e : (deliveryPlatform τ).Event) :
    Decidable (keepsIds past e) :=
  inferInstanceAs (Decidable (∀ new ∈ submittedBy e, ∀ old ∈ submitted past, old.id = new.id →
    old.notificationId = new.notificationId))

end submitted

/-! ## Copies -/

/-- The delivery is one the run created, and its notification is stored. -/
structure Traceable [Timestamp τ] (w : World τ) (past : (deliveryPlatform τ).History)
    (delivery : NotificationDelivery τ) : Prop where
  parent : (w.notifications.notifications.get delivery.notificationId).isSome = true
  origin : ∃ old ∈ submitted past, old.id = delivery.id ∧
    old.notificationId = delivery.notificationId

/-- A copy of a delivery: the stored one, where there still is one, is as new, and is the
copy while its version is the copy's. -/
structure HeldDelivery [Timestamp τ] (w : World τ) (past : (deliveryPlatform τ).History)
    (delivery : NotificationDelivery τ) : Prop extends Traceable w past delivery where
  timely : ∀ t, delivery.lastAttemptAt = some t → t ≤ w.clock
  seen : ∀ stored, w.notifications.deliveries.get delivery.id = some stored →
    delivery.version ≤ stored.version ∧ (stored.version = delivery.version → stored = delivery)

/-- The delivery can still be attempted. -/
def NotificationDelivery.isOpen (delivery : NotificationDelivery τ) : Bool :=
  delivery.status == .pending || delivery.status == .retrying

variable [Timestamp τ]

/-- What a phase says of the world. -/
def DeliveryPhase.Sound (w : World τ) (past : (deliveryPlatform τ).History) :
    DeliveryPhase τ → Prop
  | .idle => True
  | .read delivery => HeldDelivery w past delivery
  | .passed delivery t => HeldDelivery w past delivery ∧ delivery.isOpen = true ∧ t ≤ w.clock ∧
      (∀ last, delivery.lastAttemptAt = some last → last ≤ t) ∧
      (delivery.status = .pending → ∃ cutoff, Timestamp.before t ATTEMPT_LEASE_MS = some cutoff ∧
        ∀ last, delivery.lastAttemptAt = some last → last ≤ cutoff)
  | .claimed delivery | .started delivery | .answered delivery _ =>
      HeldDelivery w past delivery ∧ delivery.isOpen = true

/-! ## What a step does to one delivery -/

/-- What a phase may write to the delivery it holds, on behalf of an entry point. -/
inductive DeliveryWrite (entry : DeliveryEntry τ) : DeliveryPhase τ → NotificationDelivery τ →
    NotificationDeliveryUpdate τ → Prop where
  | claim (delivery : NotificationDelivery τ) (t : τ) :
    DeliveryWrite entry (.passed delivery t) delivery (attemptClaim delivery t)
  | reject (delivery : NotificationDelivery τ) (t : τ) {u : NotificationDeliveryUpdate τ}
    (hu : u.Settles delivery false) : DeliveryWrite entry (.passed delivery t) delivery u
  | finish (delivery : NotificationDelivery τ) (delivered : Bool) {u : NotificationDeliveryUpdate τ}
    (hu : u.Settles delivery delivered) :
    DeliveryWrite entry (.answered delivery delivered) delivery u
  | retry (delivery : NotificationDelivery τ) (t : τ) (service : NotificationService τ)
    (hentry : entry.isRetry = true) (hstatus : delivery.status = .failed) :
    DeliveryWrite entry (.read delivery) delivery (service.retryUpdate delivery t)

/-- What becomes of the delivery under an id. -/
inductive DeliveryFate (ph : DeliveryPhase τ) (step : (deliveryPlatform τ).Step) (id : String) :
    Prop where
  | same (h : step.after.notifications.deliveries.get id =
      step.before.notifications.deliveries.get id)
  | written {delivery : NotificationDelivery τ} {u : NotificationDeliveryUpdate τ}
    (hid : delivery.id = id) (hwrite : DeliveryWrite step.call.entry ph delivery u)
    (hop : ∃ tenantId, step.op =
      .notifications (.updateDelivery tenantId delivery.id delivery.version u))
    (hbefore : step.before.notifications.deliveries.get id = some delivery)
    (hafter : step.after.notifications.deliveries.get id = some (u.written delivery))
  | created {item : Notification τ} {delivery : NotificationDelivery τ}
    (hid : delivery.id = id) (hfresh : FreshDelivery item delivery)
    (hsubmitted : ∀ pid, delivery ∈ submittedBy (.ran pid step))
    (hitem : step.before.notifications.notifications.get item.id = none)
    (hparent : (step.after.notifications.notifications.get item.id).isSome = true)
    (hbefore : step.before.notifications.deliveries.get id = none)
    (hafter : step.after.notifications.deliveries.get id = some delivery)
  | erased (hop : step.op = .notifications (.deleteDelivery id))
    (hafter : step.after.notifications.deliveries.get id = none)

/-- Notifications stay; the calls that leave the deliveries alone create none. -/
structure KeepsNotifications (w w' : World τ) : Prop where
  stays : ∀ id, (w.notifications.notifications.get id).isSome = true →
    (w'.notifications.notifications.get id).isSome = true

omit [Timestamp τ] in
theorem KeepsNotifications.of_eq {w w' : World τ}
    (h : w'.notifications.notifications = w.notifications.notifications) :
    KeepsNotifications w w' := ⟨fun id hid => by rw [h]; exact hid⟩

/-- Only the transaction of a creation, and the writes of deliveries, change deliveries. -/
theorem leavesDeliveries_exec {op : AppOp τ} {choice : Choice} {w w' : World τ}
    {res : Except JsError (op.Out τ)} (hop : op.leavesDeliveries = true)
    (h : op.exec choice w = some (res, w')) :
    w'.notifications.deliveries = w.notifications.deliveries ∧ KeepsNotifications w w' := by
  have hstored : ∀ {β : Type} {r : Except JsError β × World τ} {res : Except JsError β},
      r.2.notifications = w.notifications → stored choice w r = some (res, w') →
      w'.notifications.deliveries = w.notifications.deliveries ∧ KeepsNotifications w w' := by
    intro β r res hr hs
    rcases stored_cases hs with ⟨-, rfl⟩ | ⟨_, -, rfl | rfl⟩
    · exact ⟨by rw [hr], .of_eq (by rw [hr])⟩
    · exact ⟨by rw [hr], .of_eq (by rw [hr])⟩
    · exact ⟨rfl, .of_eq rfl⟩
  cases op with
  | authority o =>
    have hsame := (o.exec_stores h).notifications
    exact ⟨by rw [hsame], .of_eq (by rw [hsame])⟩
  | jobs o => exact hstored rfl h
  | schedules o => exact hstored rfl h
  | webhooks o => exact hstored rfl h
  | apiKeys o => exact hstored rfl h
  | configuration o => exact hstored rfl h
  | secretMetadata o => exact hstored rfl h
  | audit o => cases o <;> exact hstored rfl h
  | commit ops => cases hop
  | host o =>
    rw [o.exec_world h]
    exact ⟨rfl, .of_eq rfl⟩
  | notifications o =>
    cases o with
    | getNotification | listNotifications | listDeliveries => exact hstored rfl h
    | commitNotification | deleteNotification | getDelivery | updateDelivery | deleteDelivery =>
      cases hop
    | updateNotification id v u =>
      have hkeeps : ∀ notifications' r, w.notifications.notifications.updateIfVersion id v u.apply =
          (r, notifications') → ∀ k, (w.notifications.notifications.get k).isSome = true →
          (notifications'.get k).isSome = true := by
        intro notifications' r hupdate k hk
        obtain ⟨a, ha⟩ := Option.isSome_iff_exists.mp hk
        obtain ⟨b, hb, -⟩ := Table.fence_updateIfVersion hupdate k a ha
        rw [hb]
        rfl
      cases hupdate : w.notifications.notifications.updateIfVersion id v u.apply with
      | mk r notifications' =>
        simp only [AppOp.exec, NotificationOp.exec, hupdate] at h
        rcases stored_cases h with ⟨-, rfl⟩ | ⟨_, -, rfl | rfl⟩
        · exact ⟨rfl, ⟨hkeeps notifications' r hupdate⟩⟩
        · exact ⟨rfl, ⟨hkeeps notifications' r hupdate⟩⟩
        · exact ⟨rfl, .of_eq rfl⟩

/-- Notifications stay whatever a process does. -/
theorem DeliveryStep.keeps {ph ph' : DeliveryPhase τ} {step : (deliveryPlatform τ).Step}
    {choice : Choice} (hstep : DeliveryStep ph step ph')
    (hexec : AppOp.exec step.op choice step.before = some (step.res, step.after)) :
    KeepsNotifications step.before step.after := by
  have hupdate : ∀ {tenantId id : String} {v : Nat} {u : NotificationDeliveryUpdate τ}
      {w w' : World τ} {res : Except JsError (Option (NotificationDelivery τ))},
      AppOp.exec (.notifications (.updateDelivery tenantId id v u)) choice w = some (res, w') →
      KeepsNotifications w w' := by
    intro tenantId id v u w w' res h
    rcases updateDelivery_cases h with ⟨hw, -⟩ | ⟨stored, -, -, hw, -⟩ <;>
      exact .of_eq (by rw [hw])
  cases hstep with
  | plain hop => exact (leavesDeliveries_exec hop hexec).2
  | get => rcases stored_cases hexec with ⟨-, hw⟩ | ⟨_, -, hw | hw⟩ <;> exact .of_eq (by rw [hw])
  | guard => exact .of_eq (by rw [(computed_ok hexec).2])
  | start | settle => exact .of_eq (by rw [host_world hexec])
  | claim | reject | finish | retry => exact hupdate hexec
  | create =>
    rcases commitNotification_cases hexec with hw | ⟨hnone, hitems, -⟩
    · exact .of_eq (by rw [hw])
    · refine ⟨fun id hid => ?_⟩
      rw [hitems, Table.get_put]
      split
      · rfl
      · exact hid
  | erase => rcases deleteDelivery_cases hexec with hw | hw <;> exact .of_eq (by rw [hw])

omit [Timestamp τ] in
/-- A write that went through merged into the record that was held. -/
theorem HeldDelivery.current [Timestamp τ] {w : World τ} {past : (deliveryPlatform τ).History}
    {delivery stored : NotificationDelivery τ} (h : HeldDelivery w past delivery)
    (hget : w.notifications.deliveries.get delivery.id = some stored)
    (hv : stored.version = delivery.version) : stored = delivery :=
  (h.seen stored hget).2 hv

/-- **What a step does to the delivery under an id.** -/
theorem delivery_fate {past : (deliveryPlatform τ).History} {ph ph' : DeliveryPhase τ}
    {step : (deliveryPlatform τ).Step} {choice : Choice} (hsound : ph.Sound step.before past)
    (hstep : DeliveryStep ph step ph')
    (hexec : AppOp.exec step.op choice step.before = some (step.res, step.after)) (id : String) :
    DeliveryFate ph step id := by
  have hupdate : ∀ {call : DeliveryCall τ} {tenantId : String} {delivery : NotificationDelivery τ}
      {u : NotificationDeliveryUpdate τ}
      {res : Except JsError (Option (NotificationDelivery τ))} {before after : World τ},
      HeldDelivery before past delivery → DeliveryWrite call.entry ph delivery u →
      AppOp.exec (.notifications (.updateDelivery tenantId delivery.id delivery.version u)) choice
        before = some (res, after) →
      DeliveryFate ph ⟨call, .notifications (.updateDelivery tenantId delivery.id delivery.version u),
        res, before, after⟩ id := by
    intro call tenantId delivery u res before after hheld hwrite h
    rcases updateDelivery_cases h with ⟨hw, -⟩ | ⟨stored, hget, hv, hw, -⟩
    · exact .same (by rw [hw])
    · obtain rfl := hheld.current hget hv
      by_cases hid : stored.id = id
      · subst hid
        exact .written rfl hwrite ⟨_, rfl⟩ hget (by rw [hw]; exact Table.get_put_same ..)
      · refine .same ?_
        rw [hw]
        exact Table.get_put_other _ _ (Ne.symm hid)
  cases hstep with
  | plain hop => exact .same (by rw [(leavesDeliveries_exec hop hexec).1])
  | get => rcases stored_cases hexec with ⟨-, hw⟩ | ⟨_, -, hw | hw⟩ <;> exact .same (by rw [hw])
  | guard => exact .same (by rw [(computed_ok hexec).2])
  | start | settle => exact .same (by rw [host_world hexec])
  | claim => exact hupdate hsound.1 (.claim _ _) hexec
  | reject hu => exact hupdate hsound.1 (.reject _ _ hu) hexec
  | finish hu => exact hupdate hsound.1 (.finish _ _ hu) hexec
  | retry hentry hstatus => exact hupdate hsound (.retry _ _ _ hentry hstatus) hexec
  | create hph hfresh =>
    rcases commitNotification_cases hexec with hw | ⟨hnone, hitems, hdeliveries⟩
    · exact .same (by rw [hw])
    · rcases get_insertAll hdeliveries id with hsame | ⟨hgone, delivery, hmem, hid, hget⟩
      · exact .same hsame
      · refine .created hid (hfresh delivery hmem) (fun _ => hmem) hnone ?_ hgone hget
        rw [hitems, Table.get_put_same]
        rfl
  | erase =>
    rcases deleteDelivery_cases hexec with hw | hw
    · exact .same (by rw [hw])
    · rename_i call key res before after hph
      by_cases hid : id = key
      · subst hid
        exact .erased rfl (by rw [hw]; exact if_pos rfl)
      · refine .same ?_
        rw [hw]
        exact if_neg hid

/-! ## Copies along a run -/

/-- Every stored delivery is under its id, and is a copy of itself. -/
def DeliveriesKept (w : World τ) (past : (deliveryPlatform τ).History) : Prop :=
  ∀ id delivery, w.notifications.deliveries.get id = some delivery →
    delivery.id = id ∧ HeldDelivery w past delivery

theorem Traceable.later {w w' : World τ} {past : (deliveryPlatform τ).History}
    {delivery : NotificationDelivery τ} (h : Traceable w past delivery) (hw : KeepsNotifications w w')
    (e : (deliveryPlatform τ).Event) : Traceable w' (e :: past) delivery := by
  obtain ⟨old, hold, hid⟩ := h.origin
  exact ⟨hw.stays _ h.parent, old, submitted_cons e past hold, hid⟩

/-- What is stored is a copy. -/
theorem HeldDelivery.of_stored {w : World τ} {past : (deliveryPlatform τ).History}
    {delivery : NotificationDelivery τ} (htrace : Traceable w past delivery)
    (htimely : ∀ t, delivery.lastAttemptAt = some t → t ≤ w.clock)
    (hget : w.notifications.deliveries.get delivery.id = some delivery) :
    HeldDelivery w past delivery := by
  refine ⟨htrace, htimely, fun stored hstored => ?_⟩
  rw [hget] at hstored
  obtain rfl := Option.some.inj hstored
  exact ⟨Nat.le_refl _, fun _ => rfl⟩

/-- What is created is not what was deleted: its notification is stored already. -/
theorem HeldDelivery.not_created {w : World τ} {past : (deliveryPlatform τ).History} {pid : Nat}
    {step : (deliveryPlatform τ).Step} {delivery new : NotificationDelivery τ}
    (h : HeldDelivery w past delivery) (hids : keepsIds past (.ran pid step))
    (hnew : new ∈ submittedBy (.ran pid step)) (hid : new.id = delivery.id)
    (hitem : w.notifications.notifications.get new.notificationId = none) : False := by
  obtain ⟨old, hold, holdid, hnotification⟩ := h.origin
  have hsame := hids new hnew old hold (holdid.trans hid.symm)
  have hstored := h.parent
  rw [← hnotification, hsame, hitem] at hstored
  cases hstored

/-- A copy stays a copy. -/
theorem HeldDelivery.step {past : (deliveryPlatform τ).History} {ph : DeliveryPhase τ} {pid : Nat}
    {step : (deliveryPlatform τ).Step} {delivery : NotificationDelivery τ}
    (h : HeldDelivery step.before past delivery) (hfate : DeliveryFate ph step delivery.id)
    (hkeeps : KeepsNotifications step.before step.after)
    (hclock : step.before.clock ≤ step.after.clock) (hids : keepsIds past (.ran pid step)) :
    HeldDelivery step.after (.ran pid step :: past) delivery := by
  refine ⟨h.toTraceable.later hkeeps _, fun t ht => (h.timely t ht).trans hclock, ?_⟩
  intro stored hget
  cases hfate with
  | same hsame =>
    rw [hsame] at hget
    exact h.seen stored hget
  | written hid hwrite hop hbefore hafter =>
    rw [hafter] at hget
    obtain rfl := Option.some.inj hget
    have hle := (h.seen _ hbefore).1
    simp only [NotificationDeliveryUpdate.written_version]
    exact ⟨by omega, fun hv => by omega⟩
  | created hid hfresh hsubmitted hitem hparent hbefore hafter =>
    refine absurd (h.not_created hids (hsubmitted pid) hid ?_) id
    rw [hfresh.notificationId]
    exact hitem
  | erased hop hafter =>
    rw [hafter] at hget
    cases hget

/-- Time passes, or something else changes. -/
theorem HeldDelivery.env {w w' : World τ} {past : (deliveryPlatform τ).History}
    {delivery : NotificationDelivery τ} (h : HeldDelivery w past delivery)
    (hclock : w.clock ≤ w'.clock) (hsame : w'.notifications = w.notifications) :
    HeldDelivery w' past delivery := by
  refine ⟨⟨by rw [hsame]; exact h.parent, h.origin⟩, fun t ht => (h.timely t ht).trans hclock, ?_⟩
  rw [hsame]
  exact h.seen

theorem HeldDelivery.stop {w : World τ} {past : (deliveryPlatform τ).History}
    {delivery : NotificationDelivery τ} (h : HeldDelivery w past delivery)
    (e : (deliveryPlatform τ).Event) : HeldDelivery w (e :: past) delivery :=
  ⟨h.toTraceable.later (.of_eq rfl) e, h.timely, h.seen⟩

/-- The environment of the deliveries. -/
theorem deliveryEnv_cases {move : DeliveryEnv τ} {w w' : World τ} (h : deliveryEnv move w = some w') :
    w.clock ≤ w'.clock ∧ w'.notifications = w.notifications := by
  cases move with
  | tick t =>
    simp only [deliveryEnv] at h
    split at h
    · next hle =>
      cases h
      exact ⟨hle, rfl⟩
    · cases h
  | others f =>
    cases h
    exact ⟨le_refl _, rfl⟩

/-- The phases' copies are copies of a later world. -/
theorem DeliveryPhase.Sound.later {w w' : World τ} {past past' : (deliveryPlatform τ).History}
    {ph : DeliveryPhase τ} (h : ph.Sound w past) (hclock : w.clock ≤ w'.clock)
    (hheld : ∀ delivery, HeldDelivery w past delivery → HeldDelivery w' past' delivery) :
    ph.Sound w' past' := by
  cases ph with
  | idle => trivial
  | read delivery => exact hheld delivery h
  | passed delivery t =>
    exact ⟨hheld delivery h.1, h.2.1, h.2.2.1.trans hclock, h.2.2.2⟩
  | claimed delivery | started delivery | answered delivery delivered =>
    exact ⟨hheld delivery h.1, h.2⟩

/-- What a process writes keeps the time of the last attempt, or sets it to a time that
was. -/
theorem DeliveryWrite.timely {entry : DeliveryEntry τ} {ph : DeliveryPhase τ} {w : World τ}
    {past : (deliveryPlatform τ).History} {delivery : NotificationDelivery τ}
    {u : NotificationDeliveryUpdate τ} (h : DeliveryWrite entry ph delivery u) (hsound : ph.Sound w past)
    {t : τ} (ht : (u.written delivery).lastAttemptAt = some t) : t ≤ w.clock := by
  cases h with
  | claim delivery t₀ =>
    obtain rfl := Option.some.inj ht
    exact hsound.2.2.1
  | reject delivery t₀ hu =>
    simp only [NotificationDeliveryUpdate.written, NotificationDeliveryUpdate.apply,
      hu.lastAttemptAt] at ht
    exact hsound.1.timely t ht
  | finish delivery delivered hu =>
    simp only [NotificationDeliveryUpdate.written, NotificationDeliveryUpdate.apply,
      hu.lastAttemptAt] at ht
    exact hsound.1.timely t ht
  | retry delivery t₀ service hentry hstatus => exact HeldDelivery.timely hsound t ht

/-- What a phase writes to is what it holds. -/
theorem DeliveryWrite.held {entry : DeliveryEntry τ} {ph : DeliveryPhase τ} {w : World τ}
    {past : (deliveryPlatform τ).History} {delivery : NotificationDelivery τ}
    {u : NotificationDeliveryUpdate τ} (h : DeliveryWrite entry ph delivery u)
    (hsound : ph.Sound w past) : HeldDelivery w past delivery := by
  cases h with
  | claim | reject | finish => exact hsound.1
  | retry => exact hsound

/-- Stored deliveries are kept by every step. -/
theorem DeliveriesKept.step {past : (deliveryPlatform τ).History} {ph : DeliveryPhase τ} {pid : Nat}
    {step : (deliveryPlatform τ).Step} (h : DeliveriesKept step.before past)
    (hsound : ph.Sound step.before past) (hfate : ∀ id, DeliveryFate ph step id)
    (hkeeps : KeepsNotifications step.before step.after)
    (hclock : step.before.clock = step.after.clock) (hids : keepsIds past (.ran pid step)) :
    DeliveriesKept step.after (.ran pid step :: past) := by
  intro id delivery hget
  cases hfate id with
  | same hsame =>
    rw [hsame] at hget
    obtain ⟨rfl, hheld⟩ := h id delivery hget
    exact ⟨rfl, hheld.step (hfate delivery.id) hkeeps hclock.le hids⟩
  | written hid hwrite hop hbefore hafter =>
    rw [hafter] at hget
    obtain rfl := Option.some.inj hget
    obtain rfl := hid
    have hheld := hwrite.held hsound
    have htrace := hheld.toTraceable.later hkeeps (.ran pid step)
    exact ⟨rfl, .of_stored ⟨htrace.parent, htrace.origin⟩
      (fun t ht => hclock ▸ hwrite.timely hsound ht) hafter⟩
  | created hid hfresh hsubmitted hitem hparent hbefore hafter =>
    rw [hafter] at hget
    obtain rfl := Option.some.inj hget
    obtain rfl := hid
    refine ⟨rfl, .of_stored ⟨by rw [hfresh.notificationId]; exact hparent, _, ?_, rfl, rfl⟩ ?_ hafter⟩
    · unfold submitted
      rw [List.flatMap_cons]
      exact List.mem_append_left _ (hsubmitted pid)
    · intro t ht
      rw [hfresh.lastAttemptAt] at ht
      cases ht
  | erased hop hafter =>
    rw [hafter] at hget
    cases hget

/-- What the guards say of the delivery they let pass. -/
theorem passesGuards_elim {mode : AttemptMode} {delivery : NotificationDelivery τ} {t : τ}
    (h : passesGuards mode delivery t = true) : delivery.isOpen = true ∧
      (delivery.status = .pending → ∃ cutoff, Timestamp.before t ATTEMPT_LEASE_MS = some cutoff ∧
        ∀ last, delivery.lastAttemptAt = some last → last ≤ cutoff) := by
  unfold passesGuards at h
  simp only [Bool.and_eq_true] at h
  obtain ⟨⟨hopen, -⟩, hlease⟩ := h
  refine ⟨hopen, fun hpending => ?_⟩
  split at hlease
  · next cutoff hcutoff =>
    refine ⟨cutoff, hcutoff, fun last hlast => ?_⟩
    simp only [NotificationService.isLeased, hpending, hlast, Option.any_some, beq_self_eq_true,
      Bool.true_and, Bool.not_eq_true', decide_eq_false_iff_not, not_lt] at hlease
    exact hlease
  · cases hlease

/-- The phase a step leads to is sound of the world it leaves. -/
theorem DeliveryStep.sound {past : (deliveryPlatform τ).History} {ph ph' : DeliveryPhase τ}
    {pid : Nat} {step : (deliveryPlatform τ).Step} {choice : Choice} (hstep : DeliveryStep ph step ph')
    (hexec : AppOp.exec step.op choice step.before = some (step.res, step.after))
    (hkept : DeliveriesKept step.before past) (hsound : ph.Sound step.before past)
    (hkept' : DeliveriesKept step.after (.ran pid step :: past))
    (hheld : ∀ delivery, HeldDelivery step.before past delivery →
      HeldDelivery step.after (.ran pid step :: past) delivery) :
    ph'.Sound step.after (.ran pid step :: past) := by
  have hclock := exec_clock hexec
  cases hstep with
  | plain hop => exact hsound.later hclock.ge hheld
  | get hph =>
    rename_i call id res before after
    match res with
    | .error e => trivial
    | .ok none => trivial
    | .ok (some delivery) =>
      have hget : before.notifications.deliveries.get id = some delivery := by
        rcases stored_cases hexec with ⟨hres, -⟩ | ⟨_, hres, -⟩
        · exact (Except.ok.inj hres).symm
        · cases hres
      exact hheld delivery (hkept id delivery hget).2
  | guard =>
    rename_i call delivery t before after
    obtain ⟨ht, -⟩ := computed_ok hexec
    have htime : t = before.clock := Except.ok.inj ht
    split
    · next hpass =>
      obtain ⟨hopen, hlease⟩ := passesGuards_elim hpass
      refine ⟨hheld delivery hsound, hopen, htime.le.trans hclock.ge, fun last hlast => ?_, hlease⟩
      rw [htime]
      exact HeldDelivery.timely hsound last hlast
    · trivial
  | claim =>
    rename_i call tenantId delivery t res before after
    match res with
    | .error e => trivial
    | .ok none => trivial
    | .ok (some claimed) =>
      rcases updateDelivery_cases hexec with ⟨-, hnone⟩ | ⟨stored, hget, hv, hw, hres⟩
      · exact absurd rfl (hnone claimed)
      · obtain rfl := hsound.1.current hget hv
        obtain rfl : claimed = (attemptClaim stored t).written stored := by
          rcases hres with hres | ⟨e, hres⟩
          · exact Option.some.inj (Except.ok.inj hres)
          · cases hres
        refine ⟨(hkept' stored.id _ ?_).2, hsound.2.1⟩
        rw [hw]
        exact Table.get_put_same ..
  | start => exact hsound.later hclock.ge hheld
  | settle => exact hsound.later hclock.ge hheld
  | reject | finish | retry | create | erase => trivial

/-! ## The base invariant -/

/-- What is stored and what the processes hold. -/
def DeliveryBase (w : World τ) (past : (deliveryPlatform τ).History)
    (phases : (deliveryProtocol τ).Phases) : Prop :=
  DeliveriesKept w past ∧ ∀ q phq, phases q = some phq → phq.Sound w past

theorem deliveryBase_local {cond : (deliveryPlatform τ).History → (deliveryPlatform τ).Event → Prop}
    (hcond : ∀ past e, cond past e → keepsIds past e) :
    (deliveryProtocol τ).LocalOver cond (fun _ _ _ => True) DeliveriesKept
      (fun w past _ ph => ph.Sound w past) where
  spawn call _ _ := trivial
  good {past phases pid step ph ph'} h := by
    obtain ⟨choice, hexec⟩ := h.exec
    exact h.good.step h.own (delivery_fate h.own h.next hexec) (h.next.keeps hexec)
      (exec_clock hexec).symm (hcond _ _ h.cond)
  own {past phases pid step ph ph'} h := by
    obtain ⟨choice, hexec⟩ := h.exec
    have hfate := delivery_fate h.own h.next hexec
    have hkeeps := h.next.keeps hexec
    have hclock := exec_clock hexec
    exact h.next.sound hexec h.good h.own
      (h.good.step h.own hfate hkeeps hclock.symm (hcond _ _ h.cond))
      fun delivery hheld => hheld.step (hfate _) hkeeps hclock.ge (hcond _ _ h.cond)
  other {past phases pid step ph ph' q phq} h hne hq := by
    obtain ⟨choice, hexec⟩ := h.exec
    have hfate := delivery_fate h.own h.next hexec
    exact (h.sound q phq hq).later (exec_clock hexec).ge fun delivery hheld =>
      hheld.step (hfate _) (h.next.keeps hexec) (exec_clock hexec).ge (hcond _ _ h.cond)
  stopGood h _ id delivery hget := ⟨(h id delivery hget).1, (h id delivery hget).2.stop _⟩
  stopOther _ h := h.later (le_refl _) fun _ hheld => hheld.stop _
  envGood move h henv id delivery hget := by
    obtain ⟨hclock, hsame⟩ := deliveryEnv_cases henv
    rw [hsame] at hget
    exact ⟨(h id delivery hget).1, (h id delivery hget).2.env hclock hsame⟩
  envSound move _ h henv := by
    obtain ⟨hclock, hsame⟩ := deliveryEnv_cases henv
    exact h.later hclock fun _ hheld => hheld.env hclock hsame

theorem deliveryBase {cond : (deliveryPlatform τ).History → (deliveryPlatform τ).Event → Prop}
    (hcond : ∀ past e, cond past e → keepsIds past e) :
    (deliveryProtocol τ).Inductive cond DeliveryBase :=
  (deliveryBase_local hcond).toInductive

/-- Before anything is created. -/
theorem deliveryBase_init {w : World τ} (hw : w.notifications = {}) :
    DeliveryBase w ([] : (deliveryPlatform τ).History) (fun _ => none) := by
  refine ⟨fun id delivery hget => ?_, fun q phq hq => by cases hq⟩
  rw [hw] at hget
  cases hget

/-- What is known of a step on top of the base invariant. -/
structure DeliveryTaken (past : (deliveryPlatform τ).History) (pid : Nat)
    (step : (deliveryPlatform τ).Step) (ph ph' : DeliveryPhase τ) : Prop where
  next : DeliveryStep ph step ph'
  exec : ∃ choice, AppOp.exec step.op choice step.before = some (step.res, step.after)
  ids : keepsIds past (.ran pid step)
  sound : ph.Sound step.before past
  kept : DeliveriesKept step.before past
  fate : ∀ id, DeliveryFate ph step id
  clock : step.after.clock = step.before.clock
  kept' : DeliveriesKept step.after (.ran pid step :: past)
  held : ∀ delivery, HeldDelivery step.before past delivery →
    HeldDelivery step.after (.ran pid step :: past) delivery

theorem DeliveryTaken.of {cond : (deliveryPlatform τ).History → (deliveryPlatform τ).Event → Prop}
    {Base : World τ → (deliveryPlatform τ).History → (deliveryProtocol τ).Phases → Prop}
    {Good : World τ → (deliveryPlatform τ).History → Prop}
    {Sound : World τ → (deliveryPlatform τ).History → Nat → DeliveryPhase τ → Prop}
    {past : (deliveryPlatform τ).History} {phases : (deliveryProtocol τ).Phases} {pid : Nat}
    {step : (deliveryPlatform τ).Step} {ph ph' : DeliveryPhase τ}
    (hcond : ∀ past e, cond past e → keepsIds past e)
    (hbase : ∀ {w past phases}, Base w past phases → DeliveryBase w past phases)
    (h : Discipline.Taken (deliveryProtocol τ) cond Base Good Sound past phases pid step ph ph') :
    DeliveryTaken past pid step ph ph' := by
  obtain ⟨choice, hexec⟩ := h.exec
  have hids := hcond _ _ h.cond
  have hbase := hbase h.base
  have hsound := hbase.2 pid ph h.here
  have hfate := delivery_fate hsound h.next hexec
  have hkeeps := h.next.keeps hexec
  have hclock := exec_clock hexec
  exact ⟨h.next, h.exec, hids, hsound, hbase.1, hfate, hclock,
    hbase.1.step hsound hfate hkeeps hclock.symm hids,
    fun delivery hheld => hheld.step (hfate _) hkeeps hclock.ge hids⟩

end AppPort
