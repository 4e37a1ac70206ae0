import Mathlib.Data.Finset.Card
import Mathlib.Order.Interval.Finset.Nat
import AppPort.Notifications.Records

/-!
# Attempts of a delivery are bounded

A claim raises `attemptCount` by one and looks at no limit: `maxAttempts` is compared
when an attempt *settles*, and decides whether the delivery waits for another one. So a
last attempt that never settles leaves a delivery that can be claimed once more. As long
as every last attempt is settled before its delivery is claimed again, every claim is
below the limit; and as claims of one delivery have different counts, so are the calls of
its channel.
-/

namespace AppPort

open Effects Effects.Platform

variable {τ : Type} [Timestamp τ]

/-! ## Claims and calls -/

/-- The record a claim left, when it went through. -/
def claimedRecord : (deliveryPlatform τ).Step → Option (NotificationDelivery τ)
  | ⟨_, .notifications (.updateDelivery _ id v u), _, before, after⟩ =>
    if u.attemptCount.isSome && (before.notifications.deliveries.get id).any (fun d => d.version == v)
    then (after.notifications.deliveries.get id).filter (fun d => d.version == v + 1)
    else none
  | _ => none

/-- Who claimed a delivery, and the record since. -/
def claimedBy : (deliveryPlatform τ).Event → Option (Nat × NotificationDelivery τ)
  | .ran pid step => (claimedRecord step).map fun delivery => (pid, delivery)
  | .stopped _ _ => none

def deliveryClaims (past : (deliveryPlatform τ).History) : List (Nat × NotificationDelivery τ) :=
  past.filterMap claimedBy

/-- The delivery and the attempt a record stands for. -/
def NotificationDelivery.attempt (delivery : NotificationDelivery τ) : String × Nat :=
  (delivery.id, delivery.attemptCount)

/-- The delivery whose channel the event invokes. -/
def invokedBy : (deliveryPlatform τ).Event → Option (NotificationDelivery τ)
  | .ran _ ⟨_, .host (.startChannel _ delivery), _, _, _⟩ => some delivery
  | _ => none

/-- The attempts whose channel was invoked. -/
def invocations (past : (deliveryPlatform τ).History) : List (String × Nat) :=
  past.filterMap fun e => (invokedBy e).map NotificationDelivery.attempt

/-- How often the channel of the delivery was invoked. -/
def channelCalls (id : String) (past : (deliveryPlatform τ).History) : Nat :=
  ((invocations past).filter fun attempt => attempt.1 == id).length

/-- The record a settlement left, when its process learned that it went through. -/
def settledBy : (deliveryPlatform τ).Event → Option (NotificationDelivery τ)
  | .ran _ ⟨_, .notifications (.updateDelivery _ _ _ u), .ok (some updated), _, _⟩ =>
    if u.status.isSome then some updated else none
  | _ => none

/-- The attempt that claimed this record was settled. -/
def isSettled (past : (deliveryPlatform τ).History) (claimed : NotificationDelivery τ) : Bool :=
  (past.filterMap settledBy).any fun updated =>
    updated.id == claimed.id && updated.version == claimed.version + 1

/-! ## Conditions and guarantees -/

/-- The event is not of a retry by hand. -/
def isUnattended (_ : (deliveryPlatform τ).History) : (deliveryPlatform τ).Event → Bool
  | .ran _ step => !step.call.entry.isRetry
  | .stopped _ _ => true

/-- Deliveries are created with at least one attempt. -/
def grantsAttempts (_ : (deliveryPlatform τ).History) (e : (deliveryPlatform τ).Event) : Bool :=
  (submittedBy e).all fun delivery => 1 ≤ delivery.maxAttempts

/-- A delivery is claimed only when every last attempt of it so far was settled. -/
def settlesLast (past : (deliveryPlatform τ).History) (e : (deliveryPlatform τ).Event) : Bool :=
  (claimedBy e).all fun claim => (deliveryClaims past).all fun older =>
    !(older.2.id == claim.2.id && decide (older.2.maxAttempts ≤ older.2.attemptCount)) ||
      isSettled past older.2

/-- An invoked channel had been invoked less than `maxAttempts` times for its delivery. -/
def callsWithin (past : (deliveryPlatform τ).History) (e : (deliveryPlatform τ).Event) : Bool :=
  (invokedBy e).all fun delivery =>
    decide ((channelCalls delivery.id past : Int) + 1 ≤ delivery.maxAttempts)

/-- No stored delivery counts more attempts than it has. -/
def countsWithin (w : World τ) : Bool :=
  (w.notifications.deliveries.find fun d => decide (d.maxAttempts < d.attemptCount)).isEmpty

/-- What is assumed of the events of a run. -/
structure Attended (past : (deliveryPlatform τ).History) (e : (deliveryPlatform τ).Event) : Prop where
  ids : keepsIds past e
  unattended : isUnattended past e = true
  grants : grantsAttempts past e = true
  settles : settlesLast past e = true

/-! ## What claims and settlements are -/

/-- A claim that went through was made by a process that passed the guards. -/
theorem claimedRecord_elim {past : (deliveryPlatform τ).History} {pid : Nat} {ph ph' : DeliveryPhase τ}
    {step : (deliveryPlatform τ).Step} {r : NotificationDelivery τ}
    (h : DeliveryTaken past pid step ph ph') (hr : claimedRecord step = some r) :
    ∃ delivery t, ph = .passed delivery t ∧ r = (attemptClaim delivery t).written delivery ∧
      step.before.notifications.deliveries.get delivery.id = some delivery ∧
      step.after.notifications.deliveries.get delivery.id = some r := by
  obtain ⟨choice, hexec⟩ := h.exec
  have hsound := h.sound
  cases h.next with
  | plain hop =>
    unfold claimedRecord at hr
    split at hr
    · cases hop
    · cases hr
  | get | guard | start | settle | create | erase => cases hr
  | reject hu | finish hu => simp [claimedRecord, hu.attemptCount] at hr
  | retry => simp [claimedRecord, NotificationService.retryUpdate] at hr
  | claim =>
    rename_i call tenantId delivery t res before after
    simp only [claimedRecord] at hr
    split at hr
    · next hclaim =>
      obtain ⟨hafter, hversion⟩ := Option.filter_eq_some_iff.mp hr
      rcases updateDelivery_cases hexec with ⟨hw, -⟩ | ⟨stored, hget, hv, hw, -⟩
      · -- nothing was written, so the version is still the one that was read
        simp only [Bool.and_eq_true, Option.any_eq_true] at hclaim
        obtain ⟨-, stored, hget, hv⟩ := hclaim
        rw [hw, hget] at hafter
        obtain rfl := Option.some.inj hafter
        simp only [beq_iff_eq] at hv hversion
        omega
      · obtain rfl := hsound.1.current hget hv
        refine ⟨stored, t, rfl, ?_, hget, hafter⟩
        rw [hw, Table.get_put_same] at hafter
        exact (Option.some.inj hafter).symm
    · cases hr

/-- And a claim that goes through is one. -/
theorem claimedRecord_claim {step : (deliveryPlatform τ).Step} {delivery : NotificationDelivery τ}
    {t : τ} {tenantId : String}
    (hop : step.op = .notifications (.updateDelivery tenantId delivery.id delivery.version
      (attemptClaim delivery t)))
    (hbefore : step.before.notifications.deliveries.get delivery.id = some delivery)
    (hafter : step.after.notifications.deliveries.get delivery.id =
      some ((attemptClaim delivery t).written delivery)) :
    claimedRecord step = some ((attemptClaim delivery t).written delivery) := by
  obtain ⟨call, op, res, before, after⟩ := step
  dsimp only at hop hbefore hafter
  subst hop
  have hcount : (attemptClaim delivery t).attemptCount.isSome = true := rfl
  have hversion : ((attemptClaim delivery t).written delivery).version == delivery.version + 1 := by
    simp
  simp only [claimedRecord, hcount, hbefore, hafter, Option.any_some, beq_self_eq_true, Bool.and_self,
    if_true]
  exact Option.filter_eq_some_iff.mpr ⟨rfl, hversion⟩

/-- A settlement wrote the record its process held. -/
theorem settledBy_elim {past : (deliveryPlatform τ).History} {pid : Nat} {ph ph' : DeliveryPhase τ}
    {step : (deliveryPlatform τ).Step} {x : NotificationDelivery τ}
    (h : DeliveryTaken past pid step ph ph') (hx : settledBy (.ran pid step) = some x) :
    ∃ delivery u, DeliveryWrite step.call.entry ph delivery u ∧ u.status.isSome = true ∧
      x = u.written delivery ∧
      step.before.notifications.deliveries.get delivery.id = some delivery ∧
      step.after.notifications.deliveries.get delivery.id = some x := by
  obtain ⟨choice, hexec⟩ := h.exec
  have hsound := h.sound
  have hupdate : ∀ {call : DeliveryCall τ} {tenantId : String} {delivery : NotificationDelivery τ}
      {u : NotificationDeliveryUpdate τ}
      {res : Except JsError (Option (NotificationDelivery τ))} {before after : World τ},
      HeldDelivery before past delivery → DeliveryWrite call.entry ph delivery u →
      AppOp.exec (.notifications (.updateDelivery tenantId delivery.id delivery.version u)) choice
        before = some (res, after) →
      settledBy (.ran pid ⟨call, .notifications (.updateDelivery tenantId delivery.id delivery.version
        u), res, before, after⟩) = some x →
      ∃ delivery u, DeliveryWrite call.entry ph delivery u ∧ u.status.isSome = true ∧
        x = u.written delivery ∧ before.notifications.deliveries.get delivery.id = some delivery ∧
        after.notifications.deliveries.get delivery.id = some x := by
    intro call tenantId delivery u res before after hheld hwrite h hx
    match res with
    | .error e => cases hx
    | .ok none => cases hx
    | .ok (some updated) =>
      simp only [settledBy] at hx
      split at hx
      · next hstatus =>
        obtain rfl := Option.some.inj hx
        rcases updateDelivery_cases h with ⟨-, hnone⟩ | ⟨stored, hget, hv, hw, hres⟩
        · exact absurd rfl (hnone updated)
        · obtain rfl := hheld.current hget hv
          obtain rfl : updated = u.written stored := by
            rcases hres with hres | ⟨e, hres⟩
            · exact Option.some.inj (Except.ok.inj hres)
            · cases hres
          exact ⟨stored, u, hwrite, hstatus, rfl, hget, by rw [hw]; exact Table.get_put_same ..⟩
      · cases hx
  cases h.next with
  | plain hop =>
    unfold settledBy at hx
    split at hx
    · next heq =>
      cases heq
      cases hop
    · cases hx
  | get | guard | start | settle | create | erase => cases hx
  | claim => exact hupdate hsound.1 (.claim _ _) hexec hx
  | reject hu => exact hupdate hsound.1 (.reject _ _ hu) hexec hx
  | finish hu => exact hupdate hsound.1 (.finish _ _ hu) hexec hx
  | retry hentry hstatus => exact hupdate hsound (.retry _ _ _ hentry hstatus) hexec hx

/-! ## The count -/

theorem mem_deliveryClaims_cons {e : (deliveryPlatform τ).Event}
    {past : (deliveryPlatform τ).History} {claim : Nat × NotificationDelivery τ} :
    claim ∈ deliveryClaims (e :: past) ↔ claimedBy e = some claim ∨ claim ∈ deliveryClaims past := by
  simp [deliveryClaims, List.mem_filterMap]

theorem isSettled_cons {e : (deliveryPlatform τ).Event} {past : (deliveryPlatform τ).History}
    {claimed : NotificationDelivery τ} (h : isSettled (e :: past) claimed = true) :
    (∃ x, settledBy e = some x ∧ x.id = claimed.id ∧ x.version = claimed.version + 1) ∨
      isSettled past claimed = true := by
  unfold isSettled at *
  obtain ⟨x, hx, hmatch⟩ := List.any_eq_true.mp h
  obtain ⟨e', he', hx'⟩ := List.mem_filterMap.mp hx
  rcases List.mem_cons.mp he' with rfl | hpast
  · simp only [Bool.and_eq_true, beq_iff_eq] at hmatch
    exact .inl ⟨x, hx', hmatch⟩
  · exact .inr (List.any_eq_true.mpr ⟨x, List.mem_filterMap.mpr ⟨e', hpast, hx'⟩, hmatch⟩)

/-- **The count of a stored delivery.** Its last attempt was claimed, no claim is beyond it,
and when a last attempt was settled the delivery is not attempted again. -/
structure CountsAttempts (past : (deliveryPlatform τ).History) (delivery : NotificationDelivery τ) :
    Prop where
  positive : 1 ≤ delivery.maxAttempts
  within : (delivery.attemptCount : Int) ≤ delivery.maxAttempts
  counted : delivery.attemptCount = 0 ∨
    ∃ claim ∈ deliveryClaims past, claim.2.attempt = delivery.attempt
  latest : ∀ claim ∈ deliveryClaims past, claim.2.id = delivery.id →
    claim.2.attemptCount ≤ delivery.attemptCount ∧ claim.2.maxAttempts = delivery.maxAttempts
  settled : ∀ claim ∈ deliveryClaims past, claim.2.id = delivery.id →
    claim.2.maxAttempts ≤ claim.2.attemptCount → isSettled past claim.2 = true →
    delivery.isOpen = false

/-- Claims have different counts, and every call of a channel is one claim's. -/
structure AttemptsCounted (w : World τ) (past : (deliveryPlatform τ).History) : Prop where
  stored : ∀ id delivery, w.notifications.deliveries.get id = some delivery →
    CountsAttempts past delivery
  claims : ∀ claim ∈ deliveryClaims past, HeldDelivery w past claim.2 ∧
    1 ≤ claim.2.attemptCount ∧ (claim.2.attemptCount : Int) ≤ claim.2.maxAttempts
  alike : ∀ claim ∈ deliveryClaims past, ∀ older ∈ deliveryClaims past,
    claim.2.id = older.2.id → claim.2.maxAttempts = older.2.maxAttempts
  distinct : ((deliveryClaims past).map fun claim => claim.2.attempt).Nodup
  settlements : ∀ x ∈ past.filterMap settledBy, HeldDelivery w past x
  invoked : (invocations past).Nodup
  claimed : ∀ attempt ∈ invocations past, ∃ claim ∈ deliveryClaims past, claim.2.attempt = attempt
  calls : Always callsWithin past

/-- What a process knows of its claim. -/
def AttemptHeld (past : (deliveryPlatform τ).History) (pid : Nat) : DeliveryPhase τ → Prop
  | .claimed delivery => (pid, delivery) ∈ deliveryClaims past ∧
      delivery.attempt ∉ invocations past
  | _ => True

/-- Nothing happened to the delivery. -/
theorem CountsAttempts.same {e : (deliveryPlatform τ).Event} {past : (deliveryPlatform τ).History}
    {delivery : NotificationDelivery τ} (h : CountsAttempts past delivery)
    (hclaim : ∀ claim, claimedBy e = some claim → claim.2.id ≠ delivery.id)
    (hsettle : ∀ x, settledBy e = some x → x.id ≠ delivery.id) :
    CountsAttempts (e :: past) delivery := by
  refine ⟨h.positive, h.within, ?_, fun claim hmem hid => ?_, fun claim hmem hid hlast hsettled => ?_⟩
  · rcases h.counted with hzero | ⟨claim, hmem, hattempt⟩
    · exact .inl hzero
    · exact .inr ⟨claim, mem_deliveryClaims_cons.mpr (.inr hmem), hattempt⟩
  · rcases mem_deliveryClaims_cons.mp hmem with hnew | hold
    · exact absurd hid (hclaim claim hnew)
    · exact h.latest claim hold hid
  · rcases mem_deliveryClaims_cons.mp hmem with hnew | hold
    · exact absurd hid (hclaim claim hnew)
    · rcases isSettled_cons hsettled with ⟨x, hx, hxid, -⟩ | hbefore
      · exact absurd (hxid.trans hid) (hsettle x hx)
      · exact h.settled claim hold hid hlast hbefore

/-- **A claim is below the limit**, when last attempts are settled. -/
theorem CountsAttempts.claim_below {past : (deliveryPlatform τ).History} {pid : Nat}
    {step : (deliveryPlatform τ).Step} {delivery r : NotificationDelivery τ}
    (h : CountsAttempts past delivery) (hopen : delivery.isOpen = true)
    (hcond : settlesLast past (.ran pid step) = true) (hr : claimedRecord step = some r)
    (hid : r.id = delivery.id) : (delivery.attemptCount : Int) < delivery.maxAttempts := by
  by_contra hlimit
  have hlast : delivery.maxAttempts ≤ delivery.attemptCount := Int.not_lt.mp hlimit
  have hpositive := h.positive
  -- the attempts are used up, so the last one was claimed, and is settled by now
  rcases h.counted with hzero | ⟨claim, hmem, hattempt⟩
  · rw [hzero] at hlast
    omega
  · obtain ⟨hcid, hcount⟩ := Prod.mk.inj hattempt
    have hmax := (h.latest claim hmem hcid).2
    have hused : claim.2.maxAttempts ≤ claim.2.attemptCount := by
      rw [hmax, hcount]
      exact hlast
    have hsettled : isSettled past claim.2 = true := by
      have hall : (deliveryClaims past).all (fun older =>
          !(older.2.id == r.id && decide (older.2.maxAttempts ≤ older.2.attemptCount)) ||
            isSettled past older.2) = true := by
        simpa [settlesLast, claimedBy, hr] using hcond
      have hone := List.all_eq_true.mp hall claim hmem
      simpa [hcid.trans hid.symm, hused] using hone
    have hclosed := h.settled claim hmem hcid hused hsettled
    rw [hopen] at hclosed
    cases hclosed

/-- The count after a claim. -/
theorem CountsAttempts.claim {past : (deliveryPlatform τ).History} {pid : Nat}
    {step : (deliveryPlatform τ).Step} {delivery : NotificationDelivery τ} {t : τ}
    (h : CountsAttempts past delivery) (hopen : delivery.isOpen = true)
    (hcond : settlesLast past (.ran pid step) = true)
    (hr : claimedRecord step = some ((attemptClaim delivery t).written delivery))
    (hsettle : ∀ x, settledBy (.ran pid step) = some x → x.id ≠ delivery.id)
    (hbehind : ∀ x ∈ past.filterMap settledBy, x.id = delivery.id → x.version ≤ delivery.version) :
    CountsAttempts (.ran pid step :: past) ((attemptClaim delivery t).written delivery) := by
  have hbelow := h.claim_below hopen hcond hr rfl
  have hnew : claimedBy (.ran pid step) = some (pid, (attemptClaim delivery t).written delivery) := by
    simp [claimedBy, hr]
  refine ⟨h.positive, ?_, .inr ⟨_, mem_deliveryClaims_cons.mpr (.inl hnew), rfl⟩, ?_, ?_⟩
  · show ((delivery.attemptCount + 1 : Nat) : Int) ≤ delivery.maxAttempts
    omega
  · intro claim hmem hid
    rcases mem_deliveryClaims_cons.mp hmem with hclaim | hold
    · obtain rfl := Option.some.inj (hnew.symm.trans hclaim)
      exact ⟨Nat.le_refl _, rfl⟩
    · obtain ⟨hcount, hmax⟩ := h.latest claim hold hid
      exact ⟨Nat.le_succ_of_le hcount, hmax⟩
  · intro claim hmem hid hlast hsettled
    have hbefore : isSettled past claim.2 = true := by
      rcases isSettled_cons hsettled with ⟨x, hx, hxid, -⟩ | hbefore
      · exact absurd (hxid.trans hid) (hsettle x hx)
      · exact hbefore
    rcases mem_deliveryClaims_cons.mp hmem with hclaim | hold
    · -- the version of this claim was not there before
      obtain rfl := Option.some.inj (hnew.symm.trans hclaim)
      obtain ⟨x, hx, hmatch⟩ := List.any_eq_true.mp hbefore
      simp only [Bool.and_eq_true, beq_iff_eq, NotificationDeliveryUpdate.written_id,
        NotificationDeliveryUpdate.written_version] at hmatch
      have hle := hbehind x hx hmatch.1
      omega
    · have hclosed := h.settled claim hold hid hlast hbefore
      rw [hopen] at hclosed
      cases hclosed

/-- The count after a settlement. -/
theorem CountsAttempts.settle {w : World τ} {past : (deliveryPlatform τ).History} {pid : Nat}
    {step : (deliveryPlatform τ).Step} {delivery : NotificationDelivery τ}
    {u : NotificationDeliveryUpdate τ} {delivered : Bool} (h : CountsAttempts past delivery)
    (hopen : delivery.isOpen = true) (hu : u.Settles delivery delivered)
    (hget : w.notifications.deliveries.get delivery.id = some delivery)
    (hclaims : ∀ claim ∈ deliveryClaims past, HeldDelivery w past claim.2)
    (hnone : claimedRecord step = none) (hsettle : ∀ x, settledBy (.ran pid step) = some x →
      x.version = delivery.version + 1) :
    CountsAttempts (.ran pid step :: past) (u.written delivery) := by
  have hcount : (u.written delivery).attemptCount = delivery.attemptCount := by
    simp [NotificationDeliveryUpdate.written, NotificationDeliveryUpdate.apply, hu.attemptCount]
  have hmax : (u.written delivery).maxAttempts = delivery.maxAttempts := by
    simp [NotificationDeliveryUpdate.written, NotificationDeliveryUpdate.apply, hu.maxAttempts]
  have hold : ∀ claim ∈ deliveryClaims (.ran pid step :: past), claim ∈ deliveryClaims past := by
    intro claim hmem
    rcases mem_deliveryClaims_cons.mp hmem with hnew | hold
    · simp [claimedBy, hnone] at hnew
    · exact hold
  refine ⟨hmax ▸ h.positive, by rw [hcount, hmax]; exact h.within, ?_, ?_, ?_⟩
  · rw [hcount]
    rcases h.counted with hzero | ⟨claim, hmem, hattempt⟩
    · exact .inl hzero
    · refine .inr ⟨claim, mem_deliveryClaims_cons.mpr (.inr hmem), hattempt.trans ?_⟩
      simp [NotificationDelivery.attempt, hcount]
  · intro claim hmem hid
    rw [hcount, hmax]
    exact h.latest claim (hold claim hmem) hid
  · intro claim hmem hid hlast hsettled
    have hmem' := hold claim hmem
    rcases isSettled_cons hsettled with ⟨x, hx, -, hversion⟩ | hbefore
    · -- the claim that is settled is the last one, so there is no retry
      have hv := hsettle x hx
      have hsame : delivery = claim.2 := by
        refine (hclaims claim hmem').current ?_ (by omega)
        rw [hid]
        exact hget
      obtain ⟨status, hstatus, hpending, -, hretry⟩ := hu.status
      have hnot : status ≠ .retrying := by
        intro heq
        have hless := hretry heq
        rw [hsame] at hless
        omega
      have hwritten : (u.written delivery).status = status := by
        simp [NotificationDeliveryUpdate.written, NotificationDeliveryUpdate.apply, hstatus]
      simp only [NotificationDelivery.isOpen, hwritten]
      cases status with
      | pending => exact absurd rfl hpending
      | retrying => exact absurd rfl hnot
      | delivered => rfl
      | failed => rfl
    · have hclosed := h.settled claim hmem' hid hlast hbefore
      rw [hopen] at hclosed
      cases hclosed

/-! ## The count along the protocol -/

/-- A delivery the step leaves as it is was neither claimed nor settled. -/
theorem untouched {past : (deliveryPlatform τ).History} {pid : Nat} {ph ph' : DeliveryPhase τ}
    {step : (deliveryPlatform τ).Step} {id : String} (h : DeliveryTaken past pid step ph ph')
    (hsame : step.after.notifications.deliveries.get id = step.before.notifications.deliveries.get id) :
    (∀ claim, claimedBy (.ran pid step) = some claim → claim.2.id ≠ id) ∧
      ∀ x, settledBy (.ran pid step) = some x → x.id ≠ id := by
  have hmoved : ∀ (delivery : NotificationDelivery τ) (u : NotificationDeliveryUpdate τ),
      step.before.notifications.deliveries.get delivery.id = some delivery →
      step.after.notifications.deliveries.get delivery.id = some (u.written delivery) →
      delivery.id ≠ id := by
    rintro delivery u hbefore hafter rfl
    rw [hsame, hbefore] at hafter
    have hversion := congrArg NotificationDelivery.version (Option.some.inj hafter)
    simp at hversion
  constructor
  · intro claim hclaim
    obtain ⟨r, hr, rfl⟩ := Option.map_eq_some_iff.mp hclaim
    obtain ⟨delivery, t, -, rfl, hbefore, hafter⟩ := claimedRecord_elim h hr
    exact hmoved delivery _ hbefore hafter
  · intro x hx
    obtain ⟨delivery, u, -, -, rfl, hbefore, hafter⟩ := settledBy_elim h hx
    exact hmoved delivery _ hbefore hafter

/-- Only one thing happens to a delivery that is written. -/
theorem written_cases {past : (deliveryPlatform τ).History} {pid : Nat} {ph ph' : DeliveryPhase τ}
    {step : (deliveryPlatform τ).Step} {delivery : NotificationDelivery τ}
    {u : NotificationDeliveryUpdate τ} {tenantId : String} (h : DeliveryTaken past pid step ph ph')
    (hop : step.op = .notifications (.updateDelivery tenantId delivery.id delivery.version u)) :
    (u.attemptCount = none → claimedRecord step = none) ∧
    (u.status = none → settledBy (.ran pid step) = none) ∧
    ∀ x, settledBy (.ran pid step) = some x → x.id = delivery.id ∧ x.version = delivery.version + 1 := by
  have hx : ∀ x, settledBy (.ran pid step) = some x →
      x.id = delivery.id ∧ x.version = delivery.version + 1 := by
    intro x hx
    obtain ⟨choice, hexec⟩ := h.exec
    obtain ⟨call, op, res, before, after⟩ := step
    dsimp only at hop
    subst hop
    match res with
    | .error e => cases hx
    | .ok none => cases hx
    | .ok (some updated) =>
      simp only [settledBy] at hx
      split at hx
      · obtain rfl := Option.some.inj hx
        rcases updateDelivery_cases hexec with ⟨-, hnone⟩ | ⟨stored, hget, hv, hw, hres⟩
        · exact absurd rfl (hnone updated)
        · rcases hres with hres | ⟨e, hres⟩
          · obtain rfl := Option.some.inj (Except.ok.inj hres)
            have hid := (h.kept delivery.id stored hget).1
            exact ⟨hid, by simp [hv]⟩
          · cases hres
      · cases hx
  refine ⟨fun hcount => ?_, fun hstatus => ?_, hx⟩
  · obtain ⟨call, op, res, before, after⟩ := step
    dsimp only at hop
    subst hop
    simp [claimedRecord, hcount]
  · obtain ⟨call, op, res, before, after⟩ := step
    dsimp only at hop
    subst hop
    match res with
    | .error e => rfl
    | .ok none => rfl
    | .ok (some updated) => simp [settledBy, hstatus]

/-- What holds of the copies along a step. -/
theorem AttemptsCounted.stored_step {past : (deliveryPlatform τ).History} {pid : Nat}
    {ph ph' : DeliveryPhase τ} {step : (deliveryPlatform τ).Step}
    (h : AttemptsCounted step.before past) (ht : DeliveryTaken past pid step ph ph')
    (hcond : Attended past (.ran pid step)) (id : String) (delivery : NotificationDelivery τ)
    (hget : step.after.notifications.deliveries.get id = some delivery) :
    CountsAttempts (.ran pid step :: past) delivery := by
  have hheld : ∀ claim ∈ deliveryClaims past, HeldDelivery step.before past claim.2 :=
    fun claim hmem => (h.claims claim hmem).1
  have hsound := ht.sound
  cases ht.fate id with
  | same hsame =>
    have hbefore := hsame.symm.trans hget
    have hid := (ht.kept id delivery hbefore).1
    obtain ⟨hclaim, hsettle⟩ := untouched ht hsame
    exact (h.stored id delivery hbefore).same (by rw [hid]; exact hclaim) (by rw [hid]; exact hsettle)
  | written hid hwrite hop hbefore hafter =>
    rename_i old u
    obtain ⟨tenantId, hop⟩ := hop
    obtain rfl := hid
    obtain rfl := Option.some.inj (hafter.symm.trans hget)
    obtain ⟨hclaimed, hunsettled, hsettled⟩ := written_cases ht hop
    have hcounts := h.stored old.id old hbefore
    cases hwrite with
    | claim _ t =>
      refine hcounts.claim hsound.2.1 hcond.settles (claimedRecord_claim hop hbefore hafter) ?_ ?_
      · intro x hx
        rw [hunsettled rfl] at hx
        cases hx
      · intro x hx hid
        have hseen := (h.settlements x hx).seen old (by rw [hid]; exact hbefore)
        exact hseen.1
    | reject _ t hu =>
      exact hcounts.settle hsound.2.1 hu hbefore hheld (hclaimed hu.attemptCount)
        fun x hx => (hsettled x hx).2
    | finish _ delivered hu =>
      exact hcounts.settle hsound.2 hu hbefore hheld (hclaimed hu.attemptCount)
        fun x hx => (hsettled x hx).2
    | retry _ t service hentry hstatus =>
      have hunattended := hcond.unattended
      simp [isUnattended, hentry] at hunattended
  | created hid hfresh hsubmitted hitem hparent hbefore hafter =>
    rename_i item new
    obtain rfl := Option.some.inj (hafter.symm.trans hget)
    obtain rfl := hid
    have hpositive : 1 ≤ new.maxAttempts := by
      have hall := List.all_eq_true.mp hcond.grants new (hsubmitted pid)
      simpa using hall
    -- no claim was of this delivery, since what is deleted does not come back
    have hnone : ∀ claim ∈ deliveryClaims (.ran pid step :: past), claim.2.id ≠ new.id := by
      intro claim hmem hcid
      rcases mem_deliveryClaims_cons.mp hmem with hnew | hold
      · obtain ⟨r, hr, rfl⟩ := Option.map_eq_some_iff.mp hnew
        obtain ⟨old, t, -, rfl, hold, -⟩ := claimedRecord_elim ht hr
        have hgone : step.before.notifications.deliveries.get old.id = none := by
          rw [show old.id = new.id from hcid]
          exact hbefore
        rw [hold] at hgone
        cases hgone
      · refine (hheld claim hold).not_created ht.ids (hsubmitted pid) hcid.symm ?_
        rw [hfresh.notificationId]
        exact hitem
    refine ⟨hpositive, ?_, .inl hfresh.attemptCount, ?_, ?_⟩
    · rw [hfresh.attemptCount]
      exact Int.le_of_lt hpositive
    · exact fun claim hmem hid => absurd hid (hnone claim hmem)
    · exact fun claim hmem hid => absurd hid (hnone claim hmem)
  | erased hop hafter =>
    rw [hget] at hafter
    cases hafter

omit [Timestamp τ] in
/-- Different numbers from 1 to `m` are at most `m`. -/
theorem length_le_of_nodup {m : Nat} {l : List Nat} (hl : l.Nodup) (h : ∀ n ∈ l, 1 ≤ n ∧ n ≤ m) :
    l.length ≤ m := by
  have hsub : l.toFinset ⊆ Finset.Icc 1 m := by
    intro n hn
    exact Finset.mem_Icc.mpr (h n (List.mem_toFinset.mp hn))
  have hcard := Finset.card_le_card hsub
  rw [List.toFinset_card_of_nodup hl, Nat.card_Icc] at hcard
  omega

/-- A claim whose channel was not invoked leaves room for its call. -/
theorem AttemptsCounted.room {w : World τ} {past : (deliveryPlatform τ).History} {pid : Nat}
    {delivery : NotificationDelivery τ} (h : AttemptsCounted w past)
    (hmem : (pid, delivery) ∈ deliveryClaims past) (hnew : delivery.attempt ∉ invocations past) :
    (channelCalls delivery.id past : Int) + 1 ≤ delivery.maxAttempts := by
  have hbounds : 1 ≤ delivery.attemptCount ∧ (delivery.attemptCount : Int) ≤ delivery.maxAttempts :=
    (h.claims _ hmem).2
  have hall : ∀ attempt ∈ delivery.attempt :: (invocations past).filter
      (fun attempt => attempt.1 == delivery.id), attempt.1 = delivery.id ∧
      1 ≤ attempt.2 ∧ attempt.2 ≤ delivery.maxAttempts.toNat := by
    intro attempt hattempt
    rcases List.mem_cons.mp hattempt with rfl | hold
    · refine ⟨rfl, hbounds.1, ?_⟩
      show delivery.attemptCount ≤ _
      omega
    · obtain ⟨hinvoked, hid⟩ := List.mem_filter.mp hold
      simp only [beq_iff_eq] at hid
      obtain ⟨claim, hclaim, rfl⟩ := h.claimed attempt hinvoked
      have hmax : claim.2.maxAttempts = delivery.maxAttempts := h.alike claim hclaim _ hmem hid
      have hcount := (h.claims claim hclaim).2
      refine ⟨hid, hcount.1, ?_⟩
      show claim.2.attemptCount ≤ _
      omega
  have hnodup : (delivery.attempt :: (invocations past).filter
      (fun attempt => attempt.1 == delivery.id)).Nodup := by
    refine List.nodup_cons.mpr ⟨fun hm => hnew (List.mem_filter.mp hm).1, h.invoked.filter _⟩
  have hcounts : ((delivery.attempt :: (invocations past).filter
      (fun attempt => attempt.1 == delivery.id)).map Prod.snd).Nodup := by
    refine List.Nodup.map_on ?_ hnodup
    intro a ha b hb heq
    exact Prod.ext ((hall a ha).1.trans (hall b hb).1.symm) heq
  have hlength := length_le_of_nodup hcounts (m := delivery.maxAttempts.toNat) (by
    intro n hn
    obtain ⟨attempt, hattempt, rfl⟩ := List.mem_map.mp hn
    exact (hall attempt hattempt).2)
  rw [List.length_map, List.length_cons] at hlength
  simp only [channelCalls]
  omega

/-- A claim is of an attempt that was not claimed before. -/
theorem AttemptsCounted.fresh {past : (deliveryPlatform τ).History} {pid : Nat}
    {ph ph' : DeliveryPhase τ} {step : (deliveryPlatform τ).Step} {r : NotificationDelivery τ}
    (h : AttemptsCounted step.before past) (ht : DeliveryTaken past pid step ph ph')
    (hr : claimedRecord step = some r) :
    ∀ claim ∈ deliveryClaims past, claim.2.attempt ≠ r.attempt := by
  intro claim hmem heq
  obtain ⟨delivery, t, -, rfl, hbefore, -⟩ := claimedRecord_elim ht hr
  obtain ⟨hid, hcount⟩ := Prod.mk.inj heq
  have hle := ((h.stored delivery.id delivery hbefore).latest claim hmem hid).1
  have hcount' : claim.2.attemptCount = delivery.attemptCount + 1 := hcount
  omega

/-- Who invokes a channel holds the claim. -/
theorem invokedBy_elim {pid : Nat} {ph ph' : DeliveryPhase τ} {step : (deliveryPlatform τ).Step}
    {delivery : NotificationDelivery τ} (hstep : DeliveryStep ph step ph')
    (h : invokedBy (.ran pid step) = some delivery) : ph = .claimed delivery := by
  cases hstep with
  | plain hop =>
    unfold invokedBy at h
    split at h
    · next heq =>
      cases heq
      cases hop
    · cases h
  | start =>
    obtain rfl := Option.some.inj h
    rfl
  | get | guard | claim | reject | settle | finish | retry | create | erase => cases h

theorem invocations_cons (e : (deliveryPlatform τ).Event) (past : (deliveryPlatform τ).History) :
    invocations (e :: past) =
      match invokedBy e with
      | some delivery => delivery.attempt :: invocations past
      | none => invocations past := by
  unfold invocations
  rw [List.filterMap_cons]
  cases invokedBy e <;> rfl

theorem AttemptsCounted.step {past : (deliveryPlatform τ).History} {pid : Nat}
    {ph ph' : DeliveryPhase τ} {step : (deliveryPlatform τ).Step}
    (h : AttemptsCounted step.before past) (ht : DeliveryTaken past pid step ph ph')
    (hown : AttemptHeld past pid ph) (hcond : Attended past (.ran pid step)) :
    AttemptsCounted step.after (.ran pid step :: past) := by
  have hstored := h.stored_step ht hcond
  -- the one claim that may be new
  have hnew : ∀ claim, claimedBy (.ran pid step) = some claim →
      CountsAttempts (.ran pid step :: past) claim.2 ∧
      HeldDelivery step.after (.ran pid step :: past) claim.2 ∧ 1 ≤ claim.2.attemptCount := by
    intro claim hclaim
    obtain ⟨r, hr, rfl⟩ := Option.map_eq_some_iff.mp hclaim
    obtain ⟨delivery, t, -, rfl, -, hafter⟩ := claimedRecord_elim ht hr
    exact ⟨hstored _ _ hafter, (ht.kept' _ _ hafter).2, Nat.le_add_left 1 _⟩
  have hinvoked : ∀ delivery, invokedBy (.ran pid step) = some delivery →
      (pid, delivery) ∈ deliveryClaims past ∧ delivery.attempt ∉ invocations past := by
    intro delivery hdelivery
    obtain rfl := invokedBy_elim ht.next hdelivery
    exact hown
  refine ⟨hstored, ?_, ?_, ?_, ?_, ?_, ?_, ?_⟩
  · intro claim hmem
    rcases mem_deliveryClaims_cons.mp hmem with hclaim | hold
    · obtain ⟨hcounts, hheld, hpos⟩ := hnew claim hclaim
      exact ⟨hheld, hpos, hcounts.within⟩
    · obtain ⟨hheld, hbounds⟩ := h.claims claim hold
      exact ⟨ht.held _ hheld, hbounds⟩
  · intro claim hmem older holder hid
    rcases mem_deliveryClaims_cons.mp hmem with hclaim | hold
    · exact (((hnew claim hclaim).1.latest older holder hid.symm).2).symm
    · rcases mem_deliveryClaims_cons.mp holder with hclaim | hold'
      · exact ((hnew older hclaim).1.latest claim hmem hid).2
      · exact h.alike claim hold older hold' hid
  · cases hclaim : claimedBy (.ran pid step) with
    | none =>
      have heq : deliveryClaims (.ran pid step :: past) = deliveryClaims past :=
        List.filterMap_cons_none hclaim
      rw [heq]
      exact h.distinct
    | some claim =>
      have heq : deliveryClaims (.ran pid step :: past) = claim :: deliveryClaims past :=
        List.filterMap_cons_some hclaim
      rw [heq, List.map_cons, List.nodup_cons]
      refine ⟨fun hm => ?_, h.distinct⟩
      obtain ⟨older, holder, hattempt⟩ := List.mem_map.mp hm
      obtain ⟨r, hr, rfl⟩ := Option.map_eq_some_iff.mp hclaim
      exact h.fresh ht hr older holder hattempt
  · intro x hx
    obtain ⟨e, he, hex⟩ := List.mem_filterMap.mp hx
    rcases List.mem_cons.mp he with rfl | hpast
    · obtain ⟨delivery, u, -, -, rfl, -, hafter⟩ := settledBy_elim ht hex
      exact (ht.kept' _ _ hafter).2
    · exact ht.held _ (h.settlements x (List.mem_filterMap.mpr ⟨e, hpast, hex⟩))
  · rw [invocations_cons]
    split
    · next delivery hdelivery => exact List.nodup_cons.mpr ⟨(hinvoked delivery hdelivery).2, h.invoked⟩
    · exact h.invoked
  · intro attempt hattempt
    rw [invocations_cons] at hattempt
    have hold : attempt ∈ invocations past →
        ∃ claim ∈ deliveryClaims (.ran pid step :: past), claim.2.attempt = attempt := by
      intro hmem
      obtain ⟨claim, hclaim, heq⟩ := h.claimed attempt hmem
      exact ⟨claim, mem_deliveryClaims_cons.mpr (.inr hclaim), heq⟩
    split at hattempt
    · next delivery hdelivery =>
      rcases List.mem_cons.mp hattempt with rfl | hmem
      · exact ⟨_, mem_deliveryClaims_cons.mpr (.inr (hinvoked delivery hdelivery).1), rfl⟩
      · exact hold hmem
    · exact hold hattempt
  · refine ⟨?_, h.calls⟩
    cases hdelivery : invokedBy (.ran pid step) with
    | none => simp [callsWithin, hdelivery]
    | some delivery =>
      obtain ⟨hmem, hfresh⟩ := hinvoked delivery hdelivery
      simpa [callsWithin, hdelivery] using h.room hmem hfresh

/-- Claims and calls of a past that a process stopped in. -/
theorem AttemptsCounted.stop {w : World τ} {past : (deliveryPlatform τ).History}
    (h : AttemptsCounted w past) (pid : Nat) (call : DeliveryCall τ) :
    AttemptsCounted w (.stopped pid call :: past) := by
  refine ⟨fun id delivery hget => ?_, fun claim hmem => ?_, h.alike, h.distinct, fun x hx => ?_,
    h.invoked, h.claimed, ⟨rfl, h.calls⟩⟩
  · exact (h.stored id delivery hget).same (fun _ hclaim => by cases hclaim)
      fun _ hx => by cases hx
  · obtain ⟨hheld, hbounds⟩ := h.claims claim hmem
    exact ⟨hheld.stop _, hbounds⟩
  · exact (h.settlements x hx).stop _

theorem attempts_local : (deliveryProtocol τ).LocalOver Attended DeliveryBase AttemptsCounted
    (fun _ past pid ph => AttemptHeld past pid ph) where
  spawn call _ _ := trivial
  good {past phases pid step ph ph'} h :=
    h.good.step (.of (fun _ _ hc => hc.ids) id h) h.own h.cond
  own {past phases pid step ph ph'} h := by
    have ht := DeliveryTaken.of (fun _ _ hc => hc.ids) id h
    have hown := h.own
    obtain ⟨choice, hexec⟩ := h.exec
    cases h.next with
    | plain hop =>
      cases ph with
      | claimed delivery =>
        refine ⟨mem_deliveryClaims_cons.mpr (.inr hown.1), ?_⟩
        rw [invocations_cons]
        split
        · next other hother =>
          unfold invokedBy at hother
          split at hother
          · next heq =>
            cases heq
            cases hop
          · cases hother
        · exact hown.2
      | idle | read | passed | started | answered => trivial
    | claim =>
      rename_i call tenantId delivery t res before after
      match res with
      | .error e => trivial
      | .ok none => trivial
      | .ok (some claimed) =>
        rcases updateDelivery_cases hexec with ⟨-, hnone⟩ | ⟨stored, hget, hv, hw, hres⟩
        · exact absurd rfl (hnone claimed)
        · have hsound := ht.sound
          obtain rfl := hsound.1.current hget hv
          obtain rfl : claimed = (attemptClaim stored t).written stored := by
            rcases hres with hres | ⟨e, hres⟩
            · exact Option.some.inj (Except.ok.inj hres)
            · cases hres
          have hafter : after.notifications.deliveries.get stored.id =
              some ((attemptClaim stored t).written stored) := by
            rw [hw]
            exact Table.get_put_same ..
          have hr : claimedRecord ⟨call, .notifications (.updateDelivery tenantId stored.id
              stored.version (attemptClaim stored t)), .ok (some _), before, after⟩ = some _ :=
            claimedRecord_claim rfl hget hafter
          refine ⟨mem_deliveryClaims_cons.mpr (.inl ?_), fun hmem => ?_⟩
          · exact congrArg (Option.map fun delivery => (pid, delivery)) hr
          · obtain ⟨claim, hclaim, heq⟩ := h.good.claimed _ hmem
            exact h.good.fresh ht hr claim hclaim heq
    | guard | get => split <;> trivial
    | reject | start | settle | finish | retry | create | erase => trivial
  other {past phases pid step ph ph' q phq} h hne hq := by
    cases phq with
    | claimed delivery =>
      have hheld := h.sound q _ hq
      refine ⟨mem_deliveryClaims_cons.mpr (.inr hheld.1), ?_⟩
      rw [invocations_cons]
      split
      · next other hother =>
        obtain rfl := invokedBy_elim h.next hother
        have hown := h.own
        intro hmem
        rcases List.mem_cons.mp hmem with heq | hold
        · -- the two claims are of one attempt, so they are one claim
          have hpair := List.inj_on_of_nodup_map h.good.distinct hheld.1 hown.1 heq
          exact hne (congrArg Prod.fst hpair)
        · exact hheld.2 hold
      · exact hheld.2
    | idle | read | passed | started | answered => trivial
  stopGood h _ := h.stop _ _
  stopOther {w past pid call q phq} _ h := by
    cases phq with
    | claimed delivery => exact h
    | idle | read | passed | started | answered => trivial
  envGood {w w' past} move h henv := by
    obtain ⟨hclock, hsame⟩ := deliveryEnv_cases henv
    refine ⟨fun id delivery hget => ?_, fun claim hmem => ?_, h.alike, h.distinct,
      fun x hx => (h.settlements x hx).env hclock hsame, h.invoked, h.claimed, h.calls⟩
    · rw [hsame] at hget
      exact h.stored id delivery hget
    · obtain ⟨hheld, hbounds⟩ := h.claims claim hmem
      exact ⟨hheld.env hclock hsame, hbounds⟩
  envSound move _ h _ := h

/-! ## The guarantee -/

/-- **A delivery is attempted at most `maxAttempts` times.** In every run without retries by
hand over a store that starts empty, in which deliveries have at least one attempt and no
delivery is claimed while a last attempt of it is not settled: the channel of a delivery
is invoked at most `maxAttempts` times, and `attemptCount` never exceeds `maxAttempts`. -/
theorem attempts_are_bounded {w : World τ} (hw : w.notifications = {})
    {as : List (deliveryPlatform τ).Action} {c : (deliveryPlatform τ).Config}
    (hrun : (deliveryPlatform τ).run (Config.init w) as = some c)
    (hids : Throughout keepsIds c.past) (hunattended : Always isUnattended c.past)
    (hgrants : Always grantsAttempts c.past) (hsettles : Always settlesLast c.past) :
    Always callsWithin c.past ∧ countsWithin c.world = true := by
  have hall : Throughout Attended c.past := throughout_of_split fun newer e older hpast => by
    rw [hpast] at hids hunattended hgrants hsettles
    exact ⟨Throughout.split newer hids, Throughout.split newer hunattended,
      Throughout.split newer hgrants, Throughout.split newer hsettles⟩
  have hinit : AttemptsCounted w ([] : (deliveryPlatform τ).History) := by
    refine ⟨fun id delivery hget => ?_, fun _ h => absurd h List.not_mem_nil,
      fun _ h => absurd h List.not_mem_nil, List.nodup_nil, fun _ h => absurd h List.not_mem_nil,
      List.nodup_nil, fun _ h => absurd h List.not_mem_nil, trivial⟩
    rw [hw] at hget
    cases hget
  obtain ⟨phases, ⟨-, hcounted, -⟩, -⟩ := Discipline.sound deliveryProtocol_obeyed
    ((deliveryBase fun _ _ hc => hc.ids).and attempts_local.toInductive)
    ⟨deliveryBase_init hw, hinit, fun q phq hq => by cases hq⟩ hrun hall
  refine ⟨hcounted.calls, ?_⟩
  simp only [countsWithin, List.isEmpty_iff, List.eq_nil_iff_forall_not_mem]
  intro delivery hmem
  obtain ⟨⟨id, hget⟩, hexceeds⟩ := Table.mem_find.mp hmem
  have hwithin := (hcounted.stored id delivery hget).within
  simp only [decide_eq_true_eq] at hexceeds
  omega

/-- A service whose deliveries have one attempt. -/
def singleAttempt : NotificationService Nat where
  maxDeliveryAttempts := 1
  stableUuid := "/".intercalate

/-- A notification of one channel. -/
def reminder : NormalizedNotification Nat where
  tenantId := "acme"
  recipient := "ada"
  type := "reminder"
  title := "Reminder"
  priority := .normal
  channels := ["in-app"]

/-- The next answers a process of the notification service gets. -/
def replying (pid : Nat) (choices : List Choice) : List (deliveryPlatform Nat).Action :=
  choices.map (.step pid)

/-- A notification is created, its delivery claimed, and the channel invoked. -/
def firstAttempt : List (deliveryPlatform Nat).Action :=
  .spawn ⟨singleAttempt, .notify reminder "app" none 0⟩ :: replying 0 [
    .proceed, .draw "n1", .proceed, .draw "a1", .proceed, .proceed, .proceed,
    .proceed, .proceed, .proceed, .proceed, .proceed]

/-- And the channel delivers. -/
def deliveredOnce : List (deliveryPlatform Nat).Action :=
  firstAttempt ++ replying 0 [
    .channel (.ok (.delivered none)), .proceed, .proceed, .draw "a2", .proceed, .proceed,
    .proceed, .proceed, .proceed, .proceed]

theorem attempts_are_bounded_once :
    ∃ c, (deliveryPlatform Nat).run (Config.init { clock := 30000 }) deliveredOnce = some c ∧
      channelCalls "delivery/n1/in-app" c.past = 1 ∧ Always callsWithin c.past ∧
      countsWithin c.world = true := by
  obtain ⟨c, hrun, hc⟩ : ∃ c, (deliveryPlatform Nat).run (Config.init { clock := 30000 })
      deliveredOnce = some c ∧ (decide (channelCalls "delivery/n1/in-app" c.past = 1) &&
        decide (Throughout keepsIds c.past) && decide (Always isUnattended c.past) &&
        decide (Always grantsAttempts c.past) && decide (Always settlesLast c.past)) = true :=
    exists_of_run (by decide +kernel)
  simp only [Bool.and_eq_true, decide_eq_true_eq] at hc
  obtain ⟨⟨⟨⟨hcalls, hids⟩, hunattended⟩, hgrants⟩, hsettles⟩ := hc
  have hbounded := attempts_are_bounded rfl hrun hids hunattended hgrants hsettles
  exact ⟨c, hrun, hcalls, hbounded⟩

/-! ### A last attempt that never settles -/

/-- The process stops while the channel is at work, and half a minute later the delivery
is recovered. -/
def recoveredDelivery : List (deliveryPlatform Nat).Action :=
  firstAttempt ++ [.stop 0, .env (.tick 60000),
    .spawn ⟨singleAttempt, .recoverDeliveries "acme" 0⟩] ++ replying 1 [
    .proceed, .proceed, .proceed, .proceed, .proceed, .proceed, .proceed]

/-- The only attempt is made twice, and counted so. -/
theorem recoveredDelivery_exceeds :
    ∃ c, (deliveryPlatform Nat).run (Config.init { clock := 30000 }) recoveredDelivery = some c ∧
      Always isUnattended c.past ∧ Throughout keepsIds c.past ∧ Always grantsAttempts c.past ∧
      channelCalls "delivery/n1/in-app" c.past = 2 ∧ ¬ Always callsWithin c.past ∧
      countsWithin c.world = false := by
  obtain ⟨c, hrun, hc⟩ : ∃ c, (deliveryPlatform Nat).run (Config.init { clock := 30000 })
      recoveredDelivery = some c ∧ (decide (Always isUnattended c.past) &&
        decide (Throughout keepsIds c.past) && decide (Always grantsAttempts c.past) &&
        decide (channelCalls "delivery/n1/in-app" c.past = 2) &&
        decide (¬ Always callsWithin c.past) && !countsWithin c.world) = true :=
    exists_of_run (by decide +kernel)
  simp only [Bool.and_eq_true, decide_eq_true_eq, Bool.not_eq_true'] at hc
  obtain ⟨⟨⟨⟨⟨hunattended, hids⟩, hgrants⟩, hcalls⟩, hexceeds⟩, hcounts⟩ := hc
  exact ⟨c, hrun, hunattended, hids, hgrants, hcalls, hexceeds, hcounts⟩

end AppPort
