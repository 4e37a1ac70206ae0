import AppPort.Notifications.Status

/-!
# Summary — the last settlement has seen enough

A write of the notification uses up one of the changes it still has before it is settled:
there are at most three, so the fifth attempt of `transitionNotification` cannot fail. While
a delivered delivery stands beside a pending or failed notification, some process owes it a
status; so once no call is in flight, there is none.

A status of `failed` rests on a list that may be old: it is right where no delivery was put
back since.
-/

namespace AppPort

open Effects Effects.Platform NotificationService

variable {τ : Type} [Timestamp τ]

/-! ## How often a notification can still change -/

omit [Timestamp τ] in
/-- The changes a notification has left before its status is settled. -/
def Notification.changesLeft (item : Notification τ) : Nat :=
  match item.status with
  | .pending => 2 + if item.dismissedAt.isSome then 0 else 1
  | .failed => 1 + if item.dismissedAt.isSome then 0 else 1
  | _ => 0

omit [Timestamp τ] in
theorem changesLeft_lt_attempts (item : Notification τ) :
    item.changesLeft < TRANSITION_ATTEMPTS := by
  unfold Notification.changesLeft TRANSITION_ATTEMPTS
  split <;> (try split) <;> omega

omit [Timestamp τ] in
theorem changesLeft_eq_zero {item : Notification τ} :
    item.changesLeft = 0 ↔ item.isUnsettled = false := by
  unfold Notification.changesLeft Notification.isUnsettled
  cases item.status <;> simp

omit [Timestamp τ] in
/-- **Every change uses one up.** -/
theorem StatusChange.changesLeft {call : StatusCall τ} {deliveries : List (NotificationDelivery τ)}
    {item : Notification τ} {u : NotificationUpdate τ} (h : StatusChange call deliveries item u) :
    (u.written item).changesLeft = 0 ∨ (u.written item).changesLeft < item.changesLeft := by
  have hsettled : ∀ {status : NotificationStatus}, u.status = some status → status ≠ .pending →
      status ≠ .failed → (u.written item).changesLeft = 0 := by
    intro status hu hpending hfailed
    have hstatus : (u.written item).status = status := by
      show u.status.getD item.status = status
      rw [hu]
      rfl
    unfold Notification.changesLeft
    rw [hstatus]
    cases status <;> first | rfl | exact absurd rfl hpending | exact absurd rfl hfailed
  cases h with
  | deliver h hu => exact .inl (hsettled hu nofun nofun)
  | expire h hu => exact .inl (hsettled hu nofun nofun)
  | fail h hsome hall hu hdismissed =>
    right
    have hsame : (u.written item).dismissedAt = item.dismissedAt := by
      show u.dismissedAt.getD item.dismissedAt = _
      rw [hdismissed]
      rfl
    have hstatus : (u.written item).status = .failed := by
      show u.status.getD item.status = _
      rw [hu]
      rfl
    unfold Notification.changesLeft
    rw [hstatus, h, hsame]
    dsimp only
    omega
  | mutate type t hcall hu =>
    unfold MutateType.change at hu
    cases type with
    | read =>
      dsimp only at hu
      split at hu
      · cases hu
      cases hu
      left
      by_cases hack : item.status = .acknowledged
      · unfold Notification.changesLeft NotificationUpdate.written NotificationUpdate.apply
        simp [hack]
      · refine hsettled (if_neg hack) nofun nofun
    | acknowledged =>
      dsimp only at hu
      split at hu
      · cases hu
      cases hu
      exact .inl (hsettled rfl nofun nofun)
    | dismissed =>
      dsimp only at hu
      split at hu
      · cases hu
      next hnone =>
      cases hu
      unfold Notification.changesLeft NotificationUpdate.written NotificationUpdate.apply
      cases hs : item.status <;> simp [hnone]

/-! ## What a process knows -/

/-- Records are stored under their ids. -/
structure RecordsNamed (w : World τ) : Prop where
  notification : ∀ {id item}, w.notifications.notifications.get id = some item → item.id = id
  delivery : ∀ {id delivery}, w.notifications.deliveries.get id = some delivery → delivery.id = id

/-- The process has stored a delivery as delivered. -/
def HasDelivered (past : (statusPlatform τ).History) (pid : Nat) : Prop :=
  (ownSteps pid past).any deliversStep = true

/-- What is stored of the notification is the tenant's. -/
def IsOfTenant (w : World τ) (tenantId id : String) : Prop :=
  ∀ item, w.notifications.notifications.get id = some item → item.tenantId = tenantId

/-- A delivery of the notification is delivered. -/
def IsDelivered (w : World τ) (tenantId id : String) : Prop :=
  ∃ d, w.notifications.deliveries.get d.id = some d ∧ d.status = .delivered ∧
    d.tenantId = tenantId ∧ d.isOf id = true

/-- What a phase says of the world. -/
def StatusPhase.Sound (w : World τ) (past : (statusPlatform τ).History) (pid : Nat) :
    StatusPhase τ → Prop
  | .idle => True
  | .holds delivery item => delivery.status ≠ .delivered ∧
      w.notifications.deliveries.Seen delivery.id delivery ∧
      ∀ found, item = some found → found.id = delivery.notificationId ∧
        found.tenantId = delivery.tenantId ∧ IsOfTenant w found.tenantId found.id
  | .owes item => HasDelivered past pid ∧ IsOfTenant w item.tenantId item.id ∧
      IsDelivered w item.tenantId item.id
  | .telling tenantId id attempts => HasDelivered past pid ∧ IsOfTenant w tenantId id ∧
      ∀ item, w.notifications.notifications.get id = some item →
        item.changesLeft = 0 ∨ item.changesLeft < attempts
  | .tells id attempts item => HasDelivered past pid ∧ IsOfTenant w item.tenantId id ∧
      item.id = id ∧ item.isUnsettled = true ∧ w.notifications.notifications.Seen id item ∧
      item.changesLeft ≤ attempts ∧
      ∀ stored, w.notifications.notifications.get id = some stored → stored = item ∨
        stored.changesLeft = 0 ∨ stored.changesLeft < item.changesLeft
  | .sums tenantId id deliveries item =>
      (deliveries ≠ [] → allFailed deliveries = true → reopenedSince pid id past = false →
        allFailed (listedDeliveries w tenantId id) = true) ∧
      ∀ found, item = some found → found.id = id ∧ found.tenantId = tenantId ∧
        w.notifications.notifications.Seen id found
  | .lost => False

/-- Who owes a status has delivered. -/
theorem StatusPhase.Sound.hasDelivered {w : World τ} {past : (statusPlatform τ).History} {pid : Nat}
    {ph : StatusPhase τ} (h : ph.Sound w past pid) (howed : ph.owed.isSome = true) :
    HasDelivered past pid := by
  cases ph with
  | owes | tells => exact h.1
  | telling tenantId id attempts =>
    cases attempts with
    | zero => cases howed
    | succ => exact h.1
  | idle | holds | sums | lost => cases howed

/-! ### What a step does to the stores -/

inductive RecordsMove (w w' : World τ) : Prop where
  | same (h : w'.notifications = w.notifications)
  | delivery (delivery : NotificationDelivery τ) (u : NotificationDeliveryUpdate τ)
    (hget : w.notifications.deliveries.get delivery.id = some delivery)
    (hopen : delivery.status ≠ .delivered)
    (h : w'.notifications = { w.notifications with
      deliveries := w.notifications.deliveries.put delivery.id (u.written delivery) })
  | notification (call : StatusCall τ) (deliveries : List (NotificationDelivery τ))
    (item : Notification τ) (u : NotificationUpdate τ) (hchange : StatusChange call deliveries item u)
    (hget : w.notifications.notifications.get item.id = some item)
    (h : w'.notifications = { w.notifications with
      notifications := w.notifications.notifications.put item.id (u.written item) })

namespace RecordsMove

variable {w w' : World τ}

omit [Timestamp τ] in
theorem named (h : RecordsMove w w') (hnamed : RecordsNamed w) : RecordsNamed w' := by
  cases h with
  | same h => exact ⟨fun hget => hnamed.notification (h ▸ hget), fun hget => hnamed.delivery (h ▸ hget)⟩
  | delivery d u hget hopen h =>
    refine ⟨fun hget' => hnamed.notification (by rw [h] at hget'; exact hget'), fun hget' => ?_⟩
    rw [h] at hget'
    simp only [Table.get_put] at hget'
    split at hget'
    · next hid =>
      obtain rfl := Option.some.inj hget'
      exact hid.symm
    · exact hnamed.delivery hget'
  | notification call ds item u hchange hget h =>
    refine ⟨fun hget' => ?_, fun hget' => hnamed.delivery (by rw [h] at hget'; exact hget')⟩
    rw [h] at hget'
    simp only [Table.get_put] at hget'
    split at hget'
    · next hid =>
      obtain rfl := Option.some.inj hget'
      exact hid.symm
    · exact hnamed.notification hget'

omit [Timestamp τ] in
theorem fence (h : RecordsMove w w') :
    w.notifications.notifications.Fence w'.notifications.notifications ∧
    w.notifications.deliveries.Fence w'.notifications.deliveries := by
  cases h with
  | same h =>
    rw [h]
    exact ⟨Table.Fence.refl _, Table.Fence.refl _⟩
  | delivery d u hget hopen h =>
    rw [h]
    exact ⟨Table.Fence.refl _, Table.fence_put hget (Nat.lt_succ_self d.version)⟩
  | notification call ds item u hchange hget h =>
    rw [h]
    exact ⟨Table.fence_put hget (Nat.lt_succ_self item.version), Table.Fence.refl _⟩

omit [Timestamp τ] in
/-- What is stored of a notification was stored, or used up a change. -/
theorem item (h : RecordsMove w w') {id : String} {stored : Notification τ}
    (hget : w'.notifications.notifications.get id = some stored) :
    ∃ old, w.notifications.notifications.get id = some old ∧ stored.tenantId = old.tenantId ∧
      (stored = old ∨ stored.changesLeft = 0 ∨ stored.changesLeft < old.changesLeft) := by
  cases h with
  | same h => exact ⟨stored, h ▸ hget, rfl, .inl rfl⟩
  | delivery d u hopen hgetd h =>
    rw [h] at hget
    exact ⟨stored, hget, rfl, .inl rfl⟩
  | notification call ds item u hchange hgeti h =>
    rw [h] at hget
    simp only [Table.get_put] at hget
    split at hget
    · next hid =>
      obtain rfl := Option.some.inj hget
      exact ⟨item, hid ▸ hgeti, rfl, .inr hchange.changesLeft⟩
    · exact ⟨stored, hget, rfl, .inl rfl⟩

omit [Timestamp τ] in
theorem isOfTenant (h : RecordsMove w w') {tenantId id : String} (ht : IsOfTenant w tenantId id) :
    IsOfTenant w' tenantId id := by
  intro stored hget
  obtain ⟨old, hold, htenant, -⟩ := h.item hget
  rw [htenant]
  exact ht old hold

omit [Timestamp τ] in
/-- What was delivered stays so. -/
theorem isDelivered (h : RecordsMove w w') {tenantId id : String} (hd : IsDelivered w tenantId id) :
    IsDelivered w' tenantId id := by
  obtain ⟨d, hget, hstatus, htenant, hof⟩ := hd
  cases h with
  | same h => exact ⟨d, by rw [h]; exact hget, hstatus, htenant, hof⟩
  | notification call ds item u hchange hgeti h =>
    exact ⟨d, by rw [h]; exact hget, hstatus, htenant, hof⟩
  | delivery other u hgeto hopen h =>
    refine ⟨d, ?_, hstatus, htenant, hof⟩
    rw [h]
    have hne : d.id ≠ other.id := by
      intro hid
      rw [hid, hgeto] at hget
      obtain rfl := Option.some.inj hget
      exact hopen hstatus
    rw [Table.get_put_other _ _ hne]
    exact hget

end RecordsMove

/-- Where no delivery is put back, all stay failed. -/
theorem allFailed_of_move {step : (statusPlatform τ).Step} {tenantId id : String}
    (hmove : RecordsMove step.before step.after) (hreopens : reopens id step = false)
    (hfailed : allFailed (listedDeliveries step.before tenantId id) = true) :
    allFailed (listedDeliveries step.after tenantId id) = true := by
  have hbefore : ∀ {k : String} {d : NotificationDelivery τ},
      step.before.notifications.deliveries.get k = some d → d.tenantId = tenantId →
      d.isOf id = true → d.status = .failed := by
    intro k d hget htenant hof
    have hmem : d ∈ listedDeliveries step.before tenantId id :=
      Table.mem_find.mpr ⟨⟨k, hget⟩, by simp [htenant, hof]⟩
    simpa using List.all_eq_true.mp hfailed d hmem
  refine List.all_eq_true.mpr fun d hd => ?_
  obtain ⟨⟨k, hget⟩, hlisted⟩ := Table.mem_find.mp hd
  simp only [Bool.and_eq_true, beq_iff_eq] at hlisted ⊢
  obtain ⟨htenant, hof⟩ := hlisted
  cases hmove with
  | same h => exact hbefore (h ▸ hget) htenant hof
  | notification call ds item u hchange hgeti h =>
    rw [h] at hget
    exact hbefore hget htenant hof
  | delivery other u hgeto hopen h =>
    by_cases hk : k = other.id
    · subst hk
      have hafter : step.after.notifications.deliveries.get other.id = some d := hget
      rw [h] at hget
      simp only [Table.get_put_same, Option.some.injEq] at hget
      subst hget
      have hother : other.status = .failed := hbefore hgeto htenant hof
      have hmem : other ∈ step.before.notifications.deliveries.find
          fun d => d.isOf id && d.status == .failed :=
        Table.mem_find.mpr ⟨⟨_, hgeto⟩, by simp [hother]; exact hof⟩
      have hstays := List.any_eq_false.mp hreopens other hmem
      rw [hafter] at hstays
      simpa using hstays
    · rw [h, Table.get_put_other _ _ hk] at hget
      exact hbefore hget htenant hof

/-- What has been done stays done. -/
theorem HasDelivered.cons {past : (statusPlatform τ).History} {pid : Nat}
    (h : HasDelivered past pid) (q : Nat) (step : (statusPlatform τ).Step) :
    HasDelivered (.ran q step :: past) pid := by
  unfold HasDelivered at h ⊢
  by_cases hq : q = pid
  · subst hq
    rw [ownSteps_same, List.any_cons, h, Bool.or_true]
  · rw [ownSteps_other _ _ hq]
    exact h

/-- **What a process knows stays true** while others move, and while it does not list. -/
theorem StatusPhase.Sound.frame {past : (statusPlatform τ).History} {pid q : Nat}
    {step : (statusPlatform τ).Step} {ph : StatusPhase τ} (h : ph.Sound step.before past pid)
    (hmove : RecordsMove step.before step.after)
    (hlist : ¬ (q = pid ∧ listsDeliveries step = true)) :
    ph.Sound step.after (.ran q step :: past) pid := by
  cases ph with
  | idle => trivial
  | lost => exact h
  | holds delivery item =>
    obtain ⟨hopen, hseen, hitem⟩ := h
    refine ⟨hopen, hseen.fence hmove.fence.2, fun found hfound => ?_⟩
    obtain ⟨hid, htenant, hof⟩ := hitem found hfound
    exact ⟨hid, htenant, hmove.isOfTenant hof⟩
  | owes item =>
    obtain ⟨hdelivered, hof, hstored⟩ := h
    exact ⟨hdelivered.cons q step, hmove.isOfTenant hof, hmove.isDelivered hstored⟩
  | telling tenantId id attempts =>
    obtain ⟨hdelivered, hof, hleft⟩ := h
    refine ⟨hdelivered.cons q step, hmove.isOfTenant hof, fun stored hget => ?_⟩
    obtain ⟨old, hold, -, hchange⟩ := hmove.item hget
    rcases hchange with rfl | hzero | hless
    · exact hleft _ hold
    · exact .inl hzero
    · have := hleft old hold
      omega
  | tells id attempts item =>
    obtain ⟨hdelivered, hof, hid, hunsettled, hseen, hattempts, hleft⟩ := h
    refine ⟨hdelivered.cons q step, hmove.isOfTenant hof, hid, hunsettled, hseen.fence hmove.fence.1,
      hattempts, fun stored hget => ?_⟩
    obtain ⟨old, hold, -, hchange⟩ := hmove.item hget
    have hbefore := hleft old hold
    rcases hchange with rfl | hzero | hless
    · exact hbefore
    · exact .inr (.inl hzero)
    · rcases hbefore with rfl | hold'
      · exact .inr (.inr hless)
      · exact .inr (by omega)
  | sums tenantId id deliveries item =>
    obtain ⟨hfailed, hitem⟩ := h
    refine ⟨fun hsome hall hsince => ?_, fun found hfound => ?_⟩
    · unfold reopenedSince at hsince
      rw [if_neg hlist] at hsince
      obtain ⟨hreopens, hsince⟩ := Bool.or_eq_false_iff.mp hsince
      exact allFailed_of_move hmove hreopens (hfailed hsome hall hsince)
    · obtain ⟨hid, htenant, hseen⟩ := hitem found hfound
      exact ⟨hid, htenant, hseen.fence hmove.fence.1⟩

/-- What a process knows is about the notification stores. -/
theorem StatusPhase.Sound.env {w w' : World τ} {past : (statusPlatform τ).History} {pid : Nat}
    {ph : StatusPhase τ} (h : ph.Sound w past pid) (hsame : w'.notifications = w.notifications) :
    ph.Sound w' past pid := by
  cases ph with
  | idle => trivial
  | lost => exact h.elim
  | holds | owes | telling | tells | sums =>
    simpa only [StatusPhase.Sound, IsOfTenant, IsDelivered, listedDeliveries, hsame] using h

/-- The write of a delivery that is held. -/
theorem recordsMove_write {w w' : World τ} {delivery : NotificationDelivery τ} {tenantId : String}
    {u : NotificationDeliveryUpdate τ} {choice : Choice}
    {res : Except JsError (Option (NotificationDelivery τ))} (hopen : delivery.status ≠ .delivered)
    (hseen : w.notifications.deliveries.Seen delivery.id delivery)
    (h : AppOp.exec (.notifications (.updateDelivery tenantId delivery.id delivery.version u)) choice w =
      some (res, w')) : RecordsMove w w' := by
  rcases updateDelivery_cases h with ⟨hsame, -⟩ | ⟨stored, hget, hv, hw, -⟩
  · exact .same hsame
  · obtain rfl := hseen.current hget hv
    exact .delivery stored u hget hopen hw

/-- The write of a notification that was read. -/
theorem recordsMove_change {w w' : World τ} {call : StatusCall τ}
    {deliveries : List (NotificationDelivery τ)} {item : Notification τ} {u : NotificationUpdate τ}
    {choice : Choice} {res : Except JsError (Option (Notification τ))}
    (hu : StatusChange call deliveries item u)
    (hseen : w.notifications.notifications.Seen item.id item)
    (h : AppOp.exec (.notifications (.updateNotification item.id item.version u)) choice w =
      some (res, w')) : RecordsMove w w' := by
  rcases updateNotification_cases h with ⟨hsame, -, -⟩ | ⟨stored, hget, hv, hw, -⟩
  · exact .same hsame
  · obtain rfl := hseen.current hget hv
    exact .notification call deliveries stored u hu hget hw

/-- Who owes a status is answered. -/
theorem not_broken {past : (statusPlatform τ).History} {pid : Nat} {call : StatusCall τ}
    {op : AppOp τ} {e : JsError} {before after : World τ} (hdelivered : HasDelivered past pid)
    (hreports : reportsThrough past
      (.ran pid (⟨call, op, .error e, before, after⟩ : (statusPlatform τ).Step)) = true) : False := by
  unfold HasDelivered at hdelivered
  simp only [reportsThrough, List.any_cons, hdelivered, Bool.or_true, Bool.not_true,
    Bool.false_or] at hreports
  cases hreports

/-- **Every step keeps what is stored in order.** -/
theorem recordsMove {past : (statusPlatform τ).History} {pid : Nat} {ph ph' : StatusPhase τ}
    {step : (statusPlatform τ).Step} {choice : Choice} (hnext : StatusStep ph step ph')
    (hexec : AppOp.exec step.op choice step.before = some (step.res, step.after))
    (hsound : ph.Sound step.before past pid)
    (hreports : reportsThrough past (.ran pid step) = true) : RecordsMove step.before step.after := by
  cases hnext with
  | plain hop => exact .same (leavesRecords_exec hop hexec)
  | astray => exact hsound.elim
  | breaks hph => exact (not_broken (hsound.hasDelivered hph) hreports).elim
  | getDelivery => exact .same (getDelivery_answer hexec).1
  | readItem | read | readListed | readOwing => exact .same (getNotification_answer hexec).1
  | list | listOwing => exact .same (listDeliveries_answer hexec).1
  | write => exact recordsMove_write hsound.1 hsound.2.1 hexec
  | tell hu =>
    rename_i call id attempts item u updated before after
    obtain ⟨-, -, hid, hunsettled, hseen, -⟩ := hsound
    rw [← hid] at hseen
    have hchange : StatusChange call [] item u := .deliver hunsettled hu
    exact recordsMove_change hchange hseen hexec
  | change hu =>
    obtain ⟨hid, -, hseen⟩ := hsound.2 _ rfl
    rw [← hid] at hseen
    exact recordsMove_change hu hseen hexec

omit [Timestamp τ] in
theorem isOf_notificationId (d : NotificationDelivery τ) : d.isOf d.notificationId = true := by
  unfold NotificationDelivery.isOf
  split
  · next n hn =>
    unfold keepPresent at hn
    split at hn
    · obtain rfl := Option.some.inj hn
      exact beq_self_eq_true _
    · cases hn
  · rfl

omit [Timestamp τ] in
/-- The deliveries of a notification are among those that are listed. -/
theorem allFailed_of_listed {w : World τ} {item : Notification τ}
    (h : allFailed (listedDeliveries w item.tenantId item.id) = true) :
    allFailed (deliveriesOf w item) = true := by
  refine List.all_eq_true.mpr fun d hd => List.all_eq_true.mp h d ?_
  obtain ⟨hget, hof⟩ := Table.mem_find.mp hd
  simp only [Bool.and_eq_true, beq_iff_eq] at hof
  obtain ⟨htenant, hid⟩ := hof
  refine Table.mem_find.mpr ⟨hget, ?_⟩
  rw [← hid, isOf_notificationId, htenant, beq_self_eq_true, Bool.and_self]

/-- The phase once a delivery that is held is written. -/
theorem sound_written {past : (statusPlatform τ).History} {pid : Nat} {call : StatusCall τ}
    {tenantId : String} {delivery : NotificationDelivery τ} {item : Option (Notification τ)}
    {u : NotificationDeliveryUpdate τ} {res : Except JsError (Option (NotificationDelivery τ))}
    {before after : World τ} {choice : Choice}
    (hsound : (StatusPhase.holds delivery item).Sound before past pid)
    (hitem : u.status = some .delivered → item.isSome = true)
    (hexec : AppOp.exec (.notifications (.updateDelivery tenantId delivery.id delivery.version u))
      choice before = some (res, after)) :
    (StatusPhase.written u item res).Sound after (.ran pid ⟨call,
      .notifications (.updateDelivery tenantId delivery.id delivery.version u), res, before,
      after⟩ :: past) pid := by
  obtain ⟨hopen, hseen, hfound⟩ := hsound
  match res with
  | .error e => trivial
  | .ok none => trivial
  | .ok (some updated) =>
    rcases updateDelivery_cases hexec with ⟨-, hnone⟩ | ⟨stored, hget, hv, hw, hres⟩
    · exact absurd rfl (hnone updated)
    obtain rfl := hseen.current hget hv
    obtain rfl : updated = u.written stored := by
      rcases hres with hres | ⟨e, hres⟩
      · exact Option.some.inj (Except.ok.inj hres)
      · cases hres
    have hafter : after.notifications.deliveries.get stored.id = some (u.written stored) := by
      rw [hw]
      exact Table.get_put_same ..
    have hstatus : (u.written stored).status = u.status.getD stored.status := rfl
    have hof : ∀ found, item = some found → IsOfTenant after found.tenantId found.id := by
      intro found h
      have hbefore := (hfound found h).2.2
      intro n hn
      rw [hw] at hn
      exact hbefore n hn
    unfold StatusPhase.written
    dsimp only
    by_cases hdelivered : u.status = some .delivered
    · rw [if_pos hdelivered]
      obtain ⟨found, rfl⟩ := Option.isSome_iff_exists.mp (hitem hdelivered)
      obtain ⟨hid, htenant, -⟩ := hfound found rfl
      have hstored : (u.written stored).status = .delivered := by
        rw [hstatus, hdelivered]
        rfl
      dsimp only
      rw [if_pos hstored]
      refine ⟨?_, hof found rfl, u.written stored, hafter, hstored, htenant.symm, ?_⟩
      · unfold HasDelivered
        rw [ownSteps_same, List.any_cons, Bool.or_eq_true_iff]
        left
        simp [deliversStep, hafter, hget, hstored, hopen]
      · rw [hid]
        exact isOf_notificationId (u.written stored)
    · rw [if_neg hdelivered]
      refine ⟨?_, Table.Seen.of_get hafter, fun found h => ?_⟩
      · rw [hstatus]
        cases hu : u.status with
        | none => exact hopen
        | some status =>
          intro h
          obtain rfl : status = .delivered := h
          exact hdelivered hu
      · obtain ⟨hid, htenant, -⟩ := hfound found h
        exact ⟨hid, htenant, hof found h⟩

/-- The phase once the notification is read for what was listed. -/
theorem sound_told {past : (statusPlatform τ).History} {pid : Nat} {call : StatusCall τ}
    {tenantId id : String} {attempts : Nat} {found : Option (Notification τ)} {before after : World τ}
    {choice : Choice} (hnamed : RecordsNamed before)
    (hsound : (StatusPhase.telling tenantId id (attempts + 1)).Sound before past pid)
    (hexec : AppOp.exec (.notifications (.getNotification id)) choice before =
      some (.ok found, after)) :
    (StatusPhase.told tenantId id attempts found).Sound after
      (.ran pid ⟨call, .notifications (.getNotification id), .ok found, before, after⟩ :: past)
      pid := by
  obtain ⟨hdelivered, hof, hleft⟩ := hsound
  obtain ⟨hsame, hfound⟩ := getNotification_answer hexec
  cases found with
  | none => trivial
  | some item =>
    have hget := hfound _ rfl
    have htenant := hof item hget
    dsimp only [StatusPhase.told]
    rw [if_pos htenant]
    by_cases hunsettled : item.isUnsettled = true
    · rw [if_pos hunsettled]
      have hpositive : item.changesLeft ≠ 0 := by
        rw [Ne, changesLeft_eq_zero, hunsettled]
        nofun
      refine ⟨hdelivered.cons _ _, ?_, hnamed.notification hget, hunsettled, ?_, ?_, ?_⟩
      · rw [htenant]
        intro stored hstored
        rw [hsame] at hstored
        exact hof stored hstored
      · rw [hsame]
        exact Table.Seen.of_get hget
      · have := hleft item hget
        omega
      · intro stored hstored
        rw [hsame, hget] at hstored
        exact .inl (Option.some.inj hstored).symm
    · rw [if_neg hunsettled]
      trivial

/-- **What a process knows after its own step.** -/
theorem sound_own {past : (statusPlatform τ).History} {pid : Nat} {ph ph' : StatusPhase τ}
    {step : (statusPlatform τ).Step} {choice : Choice} (hnext : StatusStep ph step ph')
    (hexec : AppOp.exec step.op choice step.before = some (step.res, step.after))
    (hnamed : RecordsNamed step.before) (hsound : ph.Sound step.before past pid)
    (hreports : reportsThrough past (.ran pid step) = true) :
    ph'.Sound step.after (.ran pid step :: past) pid := by
  have hmove := recordsMove hnext hexec hsound hreports
  cases hnext with
  | plain hop =>
    refine hsound.frame hmove ?_
    rintro ⟨-, hlists⟩
    obtain ⟨call, op, res, before, after⟩ := step
    cases op with
    | notifications o =>
      cases o <;> first
        | exact absurd hop Bool.false_ne_true
        | exact absurd hlists Bool.false_ne_true
    | _ => exact absurd hlists Bool.false_ne_true
  | astray => exact hsound.elim
  | breaks hph => exact (not_broken (hsound.hasDelivered hph) hreports).elim
  | getDelivery hph =>
    rename_i call id res before after
    obtain ⟨hsame, hfound⟩ := getDelivery_answer hexec
    match res with
    | .error e => trivial
    | .ok none => trivial
    | .ok (some delivery) =>
      have hget := hfound _ rfl
      dsimp only [StatusPhase.afterDelivery]
      split
      · trivial
      · next hopen =>
        refine ⟨hopen, ?_, fun _ h => by cases h⟩
        rw [hsame, hnamed.delivery hget]
        exact Table.Seen.of_get hget
  | readItem =>
    rename_i call delivery item res before after
    obtain ⟨hsame, hfound⟩ := getNotification_answer hexec
    obtain ⟨hopen, hseen, -⟩ := hsound
    have hnone : (StatusPhase.holds delivery none).Sound after (.ran pid ⟨call,
        .notifications (.getNotification delivery.notificationId), res, before, after⟩ :: past) pid := by
      refine ⟨hopen, ?_, fun _ h => by cases h⟩
      rw [hsame]
      exact hseen
    match res with
    | .error e => exact hnone
    | .ok none => exact hnone
    | .ok (some found) =>
      have hget := hfound _ rfl
      dsimp only [StatusPhase.withItem]
      split
      · next htenant =>
        refine ⟨hopen, hnone.2.1, fun found' h => ?_⟩
        obtain rfl := Option.some.inj h
        refine ⟨hnamed.notification hget, htenant, fun stored hstored => ?_⟩
        rw [hsame, hnamed.notification hget, hget] at hstored
        rw [Option.some.inj hstored]
      · exact hnone
  | write hitem => exact sound_written hsound hitem hexec
  | list hph =>
    rename_i call tenantId id res before after
    obtain ⟨hsame, hfound⟩ := listDeliveries_answer hexec
    cases res with
    | error e => trivial
    | ok deliveries =>
      refine ⟨fun _ hall _ => ?_, fun _ h => by cases h⟩
      have hlisted : listedDeliveries after tenantId id = deliveries := by
        rw [← hfound _ rfl]
        unfold listedDeliveries
        rw [hsame]
      rw [hlisted]
      exact hall
  | listOwing =>
    rename_i call item deliveries before after
    obtain ⟨hsame, hfound⟩ := listDeliveries_answer hexec
    obtain ⟨hdelivered, hof, d, hget, hstatus, htenant, hisOf⟩ := hsound
    have hlisted : d ∈ deliveries := by
      rw [← hfound _ rfl]
      exact Table.mem_find.mpr ⟨⟨_, hget⟩, by simp [htenant, hisOf]⟩
    have hany : anyDelivered deliveries = true :=
      List.any_eq_true.mpr ⟨d, hlisted, by simp [hstatus]⟩
    rw [if_pos hany]
    refine ⟨hdelivered.cons _ _, ?_, fun stored _ => .inr (changesLeft_lt_attempts stored)⟩
    intro stored hstored
    rw [hsame] at hstored
    exact hof stored hstored
  | read hph =>
    rename_i call id res before after
    obtain ⟨hsame, hfound⟩ := getNotification_answer hexec
    match res with
    | .error e => trivial
    | .ok none => trivial
    | .ok (some item) =>
      have hget := hfound _ rfl
      refine ⟨fun hsome => absurd rfl hsome, fun found h => ?_⟩
      obtain rfl := Option.some.inj h
      refine ⟨hnamed.notification hget, rfl, ?_⟩
      rw [hsame]
      exact Table.Seen.of_get hget
  | readListed =>
    rename_i call tenantId id deliveries old res before after
    obtain ⟨hsame, hfound⟩ := getNotification_answer hexec
    have hkept := hsound.frame (q := pid) hmove (by rintro ⟨-, hlists⟩; cases hlists)
    refine ⟨hkept.1, fun found h => ?_⟩
    match res with
    | .error e => cases h
    | .ok none => cases h
    | .ok (some item) =>
      have hget := hfound _ rfl
      dsimp only at h
      split at h
      · next htenant =>
        obtain rfl := Option.some.inj h
        refine ⟨hnamed.notification hget, htenant, ?_⟩
        rw [hsame]
        exact Table.Seen.of_get hget
      · cases h
  | readOwing => exact sound_told hnamed hsound hexec
  | tell hu =>
    rename_i call id attempts item u updated before after
    have hkept := hsound.frame (q := pid) hmove (by rintro ⟨-, hlists⟩; cases hlists)
    cases updated with
    | some updated => trivial
    | none =>
      obtain ⟨hdelivered, hof, hid, -, -, hattempts, hleft⟩ := hkept
      refine ⟨hdelivered, hof, fun stored hget => ?_⟩
      rcases updateNotification_cases hexec with ⟨hsame, hstale, -⟩ | ⟨-, -, -, -, hres⟩
      · have hget' : before.notifications.notifications.get item.id = some stored := by
          rw [hid, ← hsame]
          exact hget
        -- the write met another version, so a change was used up since
        rcases hleft stored hget with rfl | hzero | hless
        · exact absurd rfl (hstale rfl _ hget')
        · exact .inl hzero
        · exact .inr (by omega)
      · exact absurd rfl hres
  | change hu =>
    exact hsound.frame (q := pid) hmove (by rintro ⟨-, hlists⟩; cases hlists)

/-! ## What a step guarantees -/

/-- A step that leaves the notifications alone. -/
theorem guarantees_same {id : String} {past : (statusPlatform τ).History} {pid : Nat}
    {step : (statusPlatform τ).Step}
    (h : step.after.notifications.notifications = step.before.notifications.notifications) :
    failsRightly id past (.ran pid step) = true ∧ keepsFinal id past (.ran pid step) = true := by
  dsimp only [failsRightly, keepsFinal]
  rw [h]
  cases step.before.notifications.notifications.get id with
  | none => simp
  | some item => cases hs : item.status <;> simp [Notification.isUnsettled, hs]

omit [Timestamp τ] in
/-- What a change makes of the status. -/
theorem StatusChange.status {call : StatusCall τ} {deliveries : List (NotificationDelivery τ)}
    {item : Notification τ} {u : NotificationUpdate τ} (h : StatusChange call deliveries item u) :
    ((u.written item).status = .failed → item.status = .failed ∨
      (item.status = .pending ∧ deliveries ≠ [] ∧ allFailed deliveries = true ∧
        u.status = some .failed)) ∧
    (call.entry.isMutation = true ∨ item.isUnsettled = true ∨ item.status = .delivered) := by
  have hwritten : ∀ status, u.status = some status → (u.written item).status = status := by
    intro status hu
    show u.status.getD item.status = status
    rw [hu]
    rfl
  cases h with
  | deliver h hu =>
    refine ⟨fun hfailed => ?_, .inr (.inl h)⟩
    rw [hwritten _ hu] at hfailed
    cases hfailed
  | fail h hsome hall hu =>
    exact ⟨fun _ => .inr ⟨h, hsome, hall, hu⟩, .inr (.inl (isUnsettled_iff.mpr (.inl h)))⟩
  | expire h hu =>
    refine ⟨fun hfailed => ?_, ?_⟩
    · rw [hwritten _ hu] at hfailed
      cases hfailed
    · unfold canExpire at h
      unfold Notification.isUnsettled
      cases hs : item.status <;> simp_all
  | mutate type t hcall hu =>
    refine ⟨fun hfailed => ?_, .inl hcall⟩
    left
    cases type with
    | read =>
      dsimp only [MutateType.change] at hu
      split at hu
      · cases hu
      cases hu
      have hstatus : (if item.status = .acknowledged then none else some NotificationStatus.read).getD
          item.status = .failed := hfailed
      split at hstatus
      · exact hstatus
      · cases hstatus
    | acknowledged =>
      dsimp only [MutateType.change] at hu
      split at hu
      · cases hu
      cases hu
      cases hfailed
    | dismissed =>
      dsimp only [MutateType.change] at hu
      split at hu
      · cases hu
      cases hu
      exact hfailed

/-- A step that changes one. -/
theorem guarantees_change {id : String} {past : (statusPlatform τ).History} {pid : Nat}
    {step : (statusPlatform τ).Step} {deliveries : List (NotificationDelivery τ)}
    {item : Notification τ} {u : NotificationUpdate τ}
    (hchange : StatusChange step.call deliveries item u)
    (hget : step.before.notifications.notifications.get item.id = some item)
    (hafter : step.after.notifications.notifications =
      step.before.notifications.notifications.put item.id (u.written item))
    (hfail : item.id = id → deliveries ≠ [] → allFailed deliveries = true →
      u.status = some .failed → allFailed (deliveriesOf step.before item) = true) :
    failsRightly id past (.ran pid step) = true ∧ keepsFinal id past (.ran pid step) = true := by
  dsimp only [failsRightly, keepsFinal]
  rw [hafter]
  by_cases hid : id = item.id
  · subst hid
    rw [hget, Table.get_put_same]
    obtain ⟨hfailed, hfinal⟩ := hchange.status
    constructor
    · dsimp only
      by_cases hnow : (u.written item).status = .failed
      · rcases hfailed hnow with hold | ⟨-, hsome, hall, hu⟩
        · simp [hold]
        · simp [hfail rfl hsome hall hu]
      · simp [hnow]
    · rcases hfinal with hmutation | hunsettled | hdelivered
      · simp [hmutation]
      · simp [hunsettled]
      · simp [hdelivered]
  · rw [Table.get_put_other _ _ hid]
    cases step.before.notifications.notifications.get id with
    | none => simp
    | some other => cases hs : other.status <;> simp [Notification.isUnsettled, hs]

/-- **Every step does as it should**, where what it listed still stands. -/
theorem guarantees {id : String} {past : (statusPlatform τ).History} {pid : Nat}
    {ph ph' : StatusPhase τ} {step : (statusPlatform τ).Step} {choice : Choice}
    (hnext : StatusStep ph step ph')
    (hexec : AppOp.exec step.op choice step.before = some (step.res, step.after))
    (hsound : ph.Sound step.before past pid)
    (hreports : reportsThrough past (.ran pid step) = true)
    (hstands : snapshotStands id past (.ran pid step) = true) :
    failsRightly id past (.ran pid step) = true ∧ keepsFinal id past (.ran pid step) = true := by
  cases hnext with
  | plain hop =>
    refine guarantees_same ?_
    rw [leavesRecords_exec hop hexec]
  | astray => exact hsound.elim
  | breaks hph => exact (not_broken (hsound.hasDelivered hph) hreports).elim
  | getDelivery => exact guarantees_same (by rw [(getDelivery_answer hexec).1])
  | readItem | read | readListed | readOwing =>
    exact guarantees_same (by rw [(getNotification_answer hexec).1])
  | list | listOwing => exact guarantees_same (by rw [(listDeliveries_answer hexec).1])
  | write =>
    refine guarantees_same ?_
    rcases updateDelivery_cases hexec with ⟨hsame, -⟩ | ⟨stored, -, -, hw, -⟩
    · rw [hsame]
    · rw [hw]
  | tell hu =>
    rename_i call n attempts item u updated before after
    obtain ⟨-, -, hid, hunsettled, hseen, -⟩ := hsound
    rw [← hid] at hseen
    rcases updateNotification_cases hexec with ⟨hsame, -, -⟩ | ⟨stored, hget, hv, hw, -⟩
    · exact guarantees_same (by rw [hsame])
    · obtain rfl := hseen.current hget hv
      have hchange : StatusChange call [] stored u := .deliver hunsettled hu
      exact guarantees_change hchange hget (by rw [hw]) fun _ hsome => absurd rfl hsome
  | change hu =>
    rename_i call tenantId n deliveries item u res before after
    obtain ⟨hlisted, hitem⟩ := hsound
    obtain ⟨rfl, rfl, hseen⟩ := hitem item rfl
    rcases updateNotification_cases hexec with ⟨hsame, -, -⟩ | ⟨stored, hget, hv, hw, -⟩
    · exact guarantees_same (by rw [hsame])
    · obtain rfl := hseen.current hget hv
      refine guarantees_change hu hget (by rw [hw]) ?_
      rintro rfl hsome hall hfailed
      refine allFailed_of_listed (hlisted hsome hall ?_)
      simpa [snapshotStands, hfailed] using hstands

/-! ## Runs -/

/-- What is assumed of every step. -/
structure Summarizable (id : String) (past : (statusPlatform τ).History)
    (e : (statusPlatform τ).Event) : Prop where
  reports : reportsThrough past e = true
  stands : snapshotStands id past e = true

/-- What the steps of a run guarantee, over records stored under their ids. -/
structure StatusKept (id : String) (w : World τ) (past : (statusPlatform τ).History) : Prop where
  named : RecordsNamed w
  fails : Always (failsRightly id) past
  keeps : Always (keepsFinal id) past

omit [Timestamp τ] in
/-- What happens besides the calls leaves the notification stores alone. -/
theorem deliveryEnv_same [Timestamp τ] {move : DeliveryEnv τ} {w w' : World τ}
    (h : deliveryEnv move w = some w') : RecordsMove w w' := .same (deliveryEnv_cases h).2

theorem status_local (id : String) {cond : (statusPlatform τ).History → (statusPlatform τ).Event → Prop}
    (hcond : ∀ past e, cond past e → Summarizable id past e) : (statusProtocol τ).LocalOver cond
    (fun _ _ _ => True) (StatusKept id) (fun w past pid ph => ph.Sound w past pid) where
  spawn _ _ _ := trivial
  good := by
    intro past phases pid step ph ph' h
    obtain ⟨choice, hexec⟩ := h.exec
    have hsummarizable := hcond _ _ h.cond
    have hguarantees := guarantees h.next hexec h.own hsummarizable.reports hsummarizable.stands
    exact ⟨(recordsMove h.next hexec h.own hsummarizable.reports).named h.good.named,
      ⟨hguarantees.1, h.good.fails⟩, ⟨hguarantees.2, h.good.keeps⟩⟩
  own := by
    intro past phases pid step ph ph' h
    obtain ⟨choice, hexec⟩ := h.exec
    exact sound_own h.next hexec h.good.named h.own (hcond _ _ h.cond).reports
  other := by
    intro past phases pid step ph ph' q phq h hne hq
    obtain ⟨choice, hexec⟩ := h.exec
    refine (h.sound q phq hq).frame (recordsMove h.next hexec h.own (hcond _ _ h.cond).reports) ?_
    rintro ⟨rfl, -⟩
    exact hne rfl
  stopGood h _ := ⟨h.named, ⟨rfl, h.fails⟩, ⟨rfl, h.keeps⟩⟩
  stopOther {w past pid call q phq} _ h := by
    cases phq <;> exact h
  envGood move h henv := ⟨(deliveryEnv_same henv).named h.named, h.fails, h.keeps⟩
  envSound move _ h henv := h.env (deliveryEnv_cases henv).2

/-! ### Who owes a status -/

omit [Timestamp τ] in
theorem summarizes_eq_false {id : String} {w : World τ} : summarizes id w = false ↔
    ∃ item, w.notifications.notifications.get id = some item ∧ item.isUnsettled = true ∧
      ∃ d ∈ deliveriesOf w item, d.status = .delivered := by
  unfold summarizes anyDelivered
  cases w.notifications.notifications.get id <;> simp

omit [Timestamp τ] in
theorem mem_deliveriesOf {w : World τ} {item : Notification τ} {d : NotificationDelivery τ} :
    d ∈ deliveriesOf w item ↔ (∃ k, w.notifications.deliveries.get k = some d) ∧
      d.tenantId = item.tenantId ∧ d.notificationId = item.id := by
  unfold deliveriesOf
  rw [Table.mem_find]
  simp

/-- Who owes the notification a status goes on owing it while it is unsettled. -/
theorem owed_step {id : String} {past : (statusPlatform τ).History} {pid : Nat}
    {ph ph' : StatusPhase τ} {step : (statusPlatform τ).Step} {choice : Choice}
    (hnext : StatusStep ph step ph')
    (hexec : AppOp.exec step.op choice step.before = some (step.res, step.after))
    (hsound : ph.Sound step.before past pid)
    (hreports : reportsThrough past (.ran pid step) = true)
    (hown : ph'.Sound step.after (.ran pid step :: past) pid) (howed : ph.owed = some id)
    {item : Notification τ} (hget : step.after.notifications.notifications.get id = some item)
    (hunsettled : item.isUnsettled = true) : ph'.owed = some id := by
  have hleft : item.changesLeft ≠ 0 := by
    rw [Ne, changesLeft_eq_zero, hunsettled]
    nofun
  cases hnext with
  | plain => exact howed
  | astray => exact hsound.elim
  | breaks hph => exact (not_broken (hsound.hasDelivered hph) hreports).elim
  | getDelivery hph | list hph | read hph =>
    rw [hph] at howed
    cases howed
  | readItem | write | readListed | change => cases howed
  | listOwing =>
    rename_i call owing deliveries before after
    by_cases hany : anyDelivered deliveries = true
    · rw [if_pos hany]
      exact howed
    · rw [if_neg hany] at hown
      exact hown.elim
  | readOwing =>
    rename_i call tenantId n attempts found before after
    obtain rfl : n = id := Option.some.inj howed
    obtain ⟨hsame, hfound⟩ := getNotification_answer hexec
    obtain rfl : some item = found := by
      rw [← hfound _ rfl, ← hget, hsame]
    have htenant : item.tenantId = tenantId := by
      refine hsound.2.1 item ?_
      rw [← hsame]
      exact hget
    dsimp only [StatusPhase.told]
    rw [if_pos htenant, if_pos hunsettled]
    rfl
  | tell hu =>
    rename_i call n attempts told u updated before after
    obtain rfl : n = id := Option.some.inj howed
    obtain ⟨-, -, hid, -, hseen, -⟩ := hsound
    rcases updateNotification_cases hexec with ⟨hsame, -, hnone⟩ | ⟨stored, hstored, hv, hw, -⟩
    · cases updated with
      | some updated => exact absurd rfl (hnone updated)
      | none =>
        cases attempts with
        | succ => rfl
        | zero =>
          rcases hown.2.2 item hget with hzero | hless
          · exact absurd hzero hleft
          · exact absurd hless (Nat.not_lt_zero _)
    · -- what was written is settled
      subst hid
      rw [hw, Table.get_put_same] at hget
      obtain rfl := Option.some.inj hget
      have hstatus : (u.written stored).status = .delivered := by
        show u.status.getD stored.status = .delivered
        rw [hu]
        rfl
      unfold Notification.isUnsettled at hunsettled
      rw [hstatus] at hunsettled
      cases hunsettled

/-- Who stores `delivered` owes it. -/
theorem owed_new {id : String} {past : (statusPlatform τ).History} {pid : Nat}
    {ph ph' : StatusPhase τ} {step : (statusPlatform τ).Step} {choice : Choice}
    (hnext : StatusStep ph step ph')
    (hexec : AppOp.exec step.op choice step.before = some (step.res, step.after))
    (hsound : ph.Sound step.before past pid)
    (hreports : reportsThrough past (.ran pid step) = true)
    {k : String} {d : NotificationDelivery τ} (hid : d.notificationId = id)
    (hafter : step.after.notifications.deliveries.get k = some d) (hdelivered : d.status = .delivered)
    (hbefore : step.before.notifications.deliveries.get k ≠ some d) : ph'.owed = some id := by
  have hsame : step.after.notifications.deliveries = step.before.notifications.deliveries →
      ph'.owed = some id := by
    intro h
    rw [h] at hafter
    exact absurd hafter hbefore
  cases hnext with
  | plain hop => exact hsame (by rw [leavesRecords_exec hop hexec])
  | astray => exact hsound.elim
  | breaks hph => exact (not_broken (hsound.hasDelivered hph) hreports).elim
  | getDelivery => exact hsame (by rw [(getDelivery_answer hexec).1])
  | readItem | read | readListed | readOwing => exact hsame (by rw [(getNotification_answer hexec).1])
  | list | listOwing => exact hsame (by rw [(listDeliveries_answer hexec).1])
  | tell | change =>
    rcases updateNotification_cases hexec with ⟨h, -, -⟩ | ⟨stored, -, -, h, -⟩
    · exact hsame (by rw [h])
    · exact hsame (by rw [h])
  | write hitem =>
    rename_i call tenantId delivery item u res before after
    obtain ⟨hopen, hseen, hfound⟩ := hsound
    rcases updateDelivery_cases hexec with ⟨h, -⟩ | ⟨stored, hget, hv, hw, hres⟩
    · exact hsame (by rw [h])
    obtain rfl := hseen.current hget hv
    dsimp only at hget
    have hput : after.notifications.deliveries.get stored.id = some (u.written stored) := by
      rw [hw]
      exact Table.get_put_same ..
    by_cases hk : k = stored.id
    · subst hk
      dsimp only at hafter
      rw [hput] at hafter
      obtain rfl := Option.some.inj hafter
      have hu : u.status = some .delivered := by
        have hstatus : u.status.getD stored.status = .delivered := hdelivered
        cases h : u.status with
        | none =>
          rw [h] at hstatus
          exact absurd hstatus hopen
        | some status =>
          rw [h] at hstatus
          rw [show status = .delivered from hstatus]
      have hdelivers : deliversStep (⟨call, .notifications (.updateDelivery tenantId stored.id
          stored.version u), res, before, after⟩ : (statusPlatform τ).Step) = true := by
        simp [deliversStep, hput, hget, hdelivered, hopen]
      have hok : res.isOk = true := by
        simpa [reportsThrough, hdelivers] using hreports
      rcases hres with rfl | ⟨e, rfl⟩
      · obtain ⟨found, rfl⟩ := Option.isSome_iff_exists.mp (hitem hu)
        dsimp only [StatusPhase.written]
        rw [if_pos hu, if_pos hdelivered]
        show some found.id = some id
        rw [(hfound found rfl).1, ← hid]
        rfl
      · cases hok
    · dsimp only at hafter hbefore
      rw [hw, Table.get_put_other _ _ hk] at hafter
      exact absurd hafter hbefore

/-- A delivered delivery beside an unsettled status is owed to somebody. -/
def StatusOwed (id : String) (w : World τ) (_ : (statusPlatform τ).History)
    (phases : (statusProtocol τ).Phases) : Prop :=
  summarizes id w = false → ∃ pid ph, phases pid = some ph ∧ ph.owed = some id

/-- What is known of the processes, and assumed of the events. -/
abbrev StatusBase (id : String) (w : World τ) (past : (statusPlatform τ).History)
    (phases : (statusProtocol τ).Phases) : Prop :=
  StatusKept id w past ∧ ∀ q phq, phases q = some phq → phq.Sound w past q

theorem statusOwed_step {id : String} {past : (statusPlatform τ).History}
    {phases : (statusProtocol τ).Phases} {pid : Nat} {ph ph' : StatusPhase τ}
    {step : (statusPlatform τ).Step} {choice : Choice}
    (hbase : StatusBase id step.before past phases) (howed : StatusOwed id step.before past phases)
    (hph : phases pid = some ph)
    (hexec : AppOp.exec step.op choice step.before = some (step.res, step.after))
    (hnext : StatusStep ph step ph') (hreports : reportsThrough past (.ran pid step) = true) :
    StatusOwed id step.after (.ran pid step :: past)
      (Discipline.Phases.move phases pid (some ph')) := by
  intro hfalse
  have hsound := hbase.2 pid ph hph
  have hown := sound_own hnext hexec hbase.1.named hsound hreports
  have hmove := recordsMove hnext hexec hsound hreports
  obtain ⟨item, hget, hunsettled, d, hd, hdelivered⟩ := summarizes_eq_false.mp hfalse
  obtain ⟨⟨k, hk⟩, htenant, hid⟩ := mem_deliveriesOf.mp hd
  have hitem : item.id = id := (hmove.named hbase.1.named).notification hget
  by_cases hbefore : step.before.notifications.deliveries.get k = some d
  · obtain ⟨old, hold, hsame, hchange⟩ := hmove.item hget
    have holdid : old.id = id := hbase.1.named.notification hold
    have holdUnsettled : old.isUnsettled = true := by
      by_contra hsettled
      have hzero := changesLeft_eq_zero.mpr (by simpa using hsettled)
      have hleft : item.changesLeft ≠ 0 := by
        rw [Ne, changesLeft_eq_zero, hunsettled]
        nofun
      rcases hchange with rfl | hnow | hless
      · exact hsettled hunsettled
      · exact hleft hnow
      · omega
    have hold' : summarizes id step.before = false := by
      refine summarizes_eq_false.mpr ⟨old, hold, holdUnsettled, d, ?_, hdelivered⟩
      exact mem_deliveriesOf.mpr ⟨⟨k, hbefore⟩, htenant.trans hsame, by rw [hid, hitem, holdid]⟩
    obtain ⟨q, phq, hq, howes⟩ := howed hold'
    by_cases hqp : q = pid
    · subst hqp
      rw [hph] at hq
      obtain rfl := Option.some.inj hq
      exact ⟨q, ph', Discipline.Phases.move_same ..,
        owed_step hnext hexec hsound hreports hown howes hget hunsettled⟩
    · refine ⟨q, phq, ?_, howes⟩
      rw [Discipline.Phases.move_other _ _ hqp]
      exact hq
  · exact ⟨pid, ph', Discipline.Phases.move_same ..,
      owed_new hnext hexec hsound hreports (hid.trans hitem) hk hdelivered hbefore⟩

theorem statusOwed_inductive (id : String) : (statusProtocol τ).InductiveOver
    (fun past e => Summarizable id past e ∧ ∀ pid call, e ≠ .stopped pid call) (StatusBase id)
    (StatusOwed id) where
  spawn := by
    intro w past phases pid call _ howed hnone _ _ hfalse
    obtain ⟨q, phq, hq, howes⟩ := howed hfalse
    refine ⟨q, phq, ?_, howes⟩
    rw [Discipline.Phases.move_other]
    · exact hq
    · rintro rfl
      rw [hnone] at hq
      cases hq
  step st choice hbase howed hph hexec hnext hcond :=
    statusOwed_step hbase howed hph hexec hnext hcond.1.reports
  stop call _ _ _ hcond := absurd rfl (hcond.2 _ call)
  env := by
    intro w w' past phases move _ howed henv hfalse
    refine howed ?_
    have hsame := (deliveryEnv_cases henv).2
    unfold summarizes deliveriesOf at hfalse ⊢
    rw [hsame] at hfalse
    exact hfalse

/-- **The status summarizes the deliveries**, where the calls of a report go through and what
it listed still stands when it writes `failed`. -/
theorem status_summarizes_deliveries {id : String} {w : World τ}
    {as : List (statusPlatform τ).Action} {c : (statusPlatform τ).Config} (hnamed : RecordsNamed w)
    (hstart : summarizes id w = true) (hrun : (statusPlatform τ).run (Config.init w) as = some c)
    (hreports : Always reportsThrough c.past) (hstands : Always (snapshotStands id) c.past) :
    StatusSummarizes id c := by
  have hall : ∀ newer e older, c.past = newer ++ e :: older → Summarizable id older e := by
    intro newer e older heq
    rw [heq] at hreports hstands
    exact ⟨hreports.split newer, hstands.split newer⟩
  have hinit : StatusKept id w [] := ⟨hnamed, trivial, trivial⟩
  have hnobody : ∀ q phq, (fun _ => none : (statusProtocol τ).Phases) q = some phq →
      phq.Sound w [] q := fun _ _ h => by cases h
  obtain ⟨phases, hkept, -⟩ := Discipline.sound statusProtocol_obeyed
    (status_local id fun _ _ h => h).toInductive ⟨hinit, hnobody⟩ hrun
    (throughout_of_split hall)
  refine ⟨fun hreturned => ?_, hkept.1.fails, hkept.1.keeps⟩
  have hnever : Throughout (fun past e => Summarizable id past e ∧ ∀ pid call, e ≠ .stopped pid call)
      c.past := by
    refine throughout_of_split fun newer e older heq => ⟨hall newer e older heq, ?_⟩
    rintro pid call rfl
    exact never_stopped hrun hreturned pid call
      (heq ▸ List.mem_append_right newer List.mem_cons_self)
  have hunowed : StatusOwed id w [] (fun _ => none) := fun hfalse => by
    rw [hstart] at hfalse
    cases hfalse
  obtain ⟨phases, ⟨-, howed⟩, htracks⟩ := Discipline.sound statusProtocol_obeyed
    (Discipline.Inductive.and (status_local id fun _ _ h => h.1).toInductive
      (statusOwed_inductive id)) ⟨⟨hinit, hnobody⟩, hunowed⟩ hrun hnever
  by_contra hfalse
  obtain ⟨pid, ph, hph, howes⟩ := howed (by simpa using hfalse)
  obtain ⟨p, hproc, hconf⟩ := htracks.standing hph
  obtain ⟨call, r, hsettled⟩ := proc_of_allReturned hreturned (proc_lt hproc)
  rw [hproc] at hsettled
  obtain rfl := Option.some.inj hsettled
  have hnone : ph.owed = none := hconf
  rw [hnone] at howes
  cases howes

/-! ### A settlement beside another change -/

/-- A service that queues retries. -/
def queueingService : NotificationService Nat where
  jobs := some { authority := none }
  stableUuid := "/".intercalate

def alertDelivery : NotificationDelivery Nat where
  id := "delivery/n1/in-app"
  tenantId := "acme"
  notificationId := "n1"
  recipient := "ada"
  channel := "in-app"
  status := .pending
  idempotencyKey := "n1:in-app"
  attemptCount := 0
  maxAttempts := 3
  createdAt := 0

/-- A pending notification and its delivery. -/
def alerted : World Nat where
  clock := 30000
  notifications :=
    { notifications := Table.empty.put "n1" {
        id := "n1", tenantId := "acme", recipient := "ada", type := "alert", title := "Alert"
        priority := .normal, channels := ["in-app"], status := .pending, createdAt := 0 }
      deliveries := Table.empty.put "delivery/n1/in-app" alertDelivery }

theorem alerted_named : RecordsNamed alerted := by
  constructor
  · intro id item h
    simp only [alerted, Table.get_put, Table.get_empty] at h
    split at h
    · next hid =>
      obtain rfl := Option.some.inj h
      exact hid.symm
    · cases h
  · intro id delivery h
    simp only [alerted, Table.get_put, Table.get_empty] at h
    split at h
    · next hid =>
      obtain rfl := Option.some.inj h
      exact hid.symm
    · cases h

/-- The recipient, who administers notifications too. -/
def adaAdministers : LegacyPrincipal := ⟨"ada", "acme", ["notifications.admin"]⟩

/-- An attempt whose channel answers so, up to where it has read the notification again. -/
def settlingAttempt (result : NotificationDeliveryResult) : List (statusPlatform Nat).Action :=
  [.spawn ⟨queueingService, .attemptDelivery "acme" "delivery/n1/in-app" .initial⟩,
    .step 0 .proceed, .step 0 .proceed, .step 0 .proceed, .step 0 .proceed, .step 0 .proceed,
    .step 0 (.channel (.ok result)), .step 0 .proceed, .step 0 .proceed, .step 0 (.draw "a1"),
    .step 0 .proceed, .step 0 .proceed, .step 0 .proceed, .step 0 .proceed, .step 0 .proceed]

/-- The channel delivers; before that is told, the recipient dismisses the notification. -/
def dismissedMeanwhile : List (statusPlatform Nat).Action :=
  settlingAttempt (.delivered none) ++
    [.spawn ⟨queueingService, .mutate .dismissed "acme" "n1" .missing adaAdministers⟩,
      .step 1 .proceed, .step 1 .proceed, .step 1 .proceed, .step 1 (.draw "a2"), .step 1 .proceed,
      .step 1 .proceed, .step 0 .proceed, .step 0 .proceed, .step 0 .proceed]

/-- The status of the stored notification. -/
def storedStatus (id : String) (w : World τ) : Option NotificationStatus :=
  (w.notifications.notifications.get id).map Notification.status

theorem status_summarizes_deliveries_dismissed :
    ∃ c, (statusPlatform Nat).run (Config.init alerted) dismissedMeanwhile = some c ∧
      allReturned c = true ∧ storedStatus "n1" c.world = some .delivered ∧
      StatusSummarizes "n1" c := by
  obtain ⟨c, hrun, hc⟩ : ∃ c, (statusPlatform Nat).run (Config.init alerted) dismissedMeanwhile =
      some c ∧ (allReturned c && decide (storedStatus "n1" c.world = some .delivered) &&
        decide (Always reportsThrough c.past) && decide (Always (snapshotStands "n1") c.past)) = true :=
    exists_of_run (by decide +kernel)
  simp only [Bool.and_eq_true, decide_eq_true_eq] at hc
  obtain ⟨⟨⟨hreturned, hstatus⟩, hreports⟩, hstands⟩ := hc
  have hstart : summarizes "n1" alerted = true := by decide
  exact ⟨c, hrun, hreturned, hstatus,
    status_summarizes_deliveries alerted_named hstart hrun hreports hstands⟩

/-- The only delivery fails for good. Before that is told it is put back, and waits for its
job. -/
def retriedMeanwhile : List (statusPlatform Nat).Action :=
  settlingAttempt (.failed "gone" (some false)) ++
    [.spawn ⟨queueingService, .retryDelivery "acme" "n1" "in-app" .missing adaAdministers⟩,
      .step 1 .proceed, .step 1 .proceed, .step 1 .proceed, .step 1 .proceed, .step 1 (.draw "a2"),
      .step 1 .proceed, .step 1 .proceed, .step 1 (.draw "j1"), .step 1 .proceed, .step 1 .proceed,
      .step 1 (.draw "a3"), .step 1 .proceed, .step 1 .proceed, .step 0 .proceed]

/-- The notification then becomes failed, while the only delivery waits. -/
theorem retriedMeanwhile_fails_early :
    ∃ c, (statusPlatform Nat).run (Config.init alerted) retriedMeanwhile = some c ∧
      allReturned c = true ∧ storedStatus "n1" c.world = some .failed ∧
      ((c.world.notifications.deliveries.get "delivery/n1/in-app").map NotificationDelivery.status) =
        some .retrying ∧ ¬ StatusSummarizes "n1" c := by
  obtain ⟨c, hrun, hc⟩ : ∃ c, (statusPlatform Nat).run (Config.init alerted) retriedMeanwhile =
      some c ∧ (allReturned c && decide (storedStatus "n1" c.world = some .failed) &&
        decide ((c.world.notifications.deliveries.get "delivery/n1/in-app").map
          NotificationDelivery.status = some .retrying) &&
        !decide (Always (failsRightly "n1") c.past)) = true := exists_of_run (by decide +kernel)
  simp only [Bool.and_eq_true, decide_eq_true_eq, Bool.not_eq_true', decide_eq_false_iff_not] at hc
  obtain ⟨⟨⟨hreturned, hstatus⟩, hwaits⟩, hfails⟩ := hc
  exact ⟨c, hrun, hreturned, hstatus, hwaits, fun hsummarizes => hfails hsummarizes.fails⟩

end AppPort
