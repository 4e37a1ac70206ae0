import AppPort.Runtime.World

/-!
# What the calls of the notification stores do

For each call its effect on the two tables and what its answer says of them. An answer may
be lost after the write went through.
-/

namespace AppPort

open Effects

variable {τ : Type}

/-! ## The records a write leaves -/

/-- The record a write leaves. -/
def NotificationUpdate.written (u : NotificationUpdate τ) (item : Notification τ) : Notification τ :=
  { u.apply item with version := item.version + 1 }

def NotificationDeliveryUpdate.written (u : NotificationDeliveryUpdate τ)
    (delivery : NotificationDelivery τ) : NotificationDelivery τ :=
  { u.apply delivery with version := delivery.version + 1 }

@[simp] theorem NotificationDeliveryUpdate.written_id (u : NotificationDeliveryUpdate τ)
    (delivery : NotificationDelivery τ) : (u.written delivery).id = delivery.id := rfl

@[simp] theorem NotificationDeliveryUpdate.written_notificationId (u : NotificationDeliveryUpdate τ)
    (delivery : NotificationDelivery τ) :
    (u.written delivery).notificationId = delivery.notificationId := rfl

@[simp] theorem NotificationDeliveryUpdate.written_version (u : NotificationDeliveryUpdate τ)
    (delivery : NotificationDelivery τ) : (u.written delivery).version = delivery.version + 1 := rfl

/-! ## Lists -/

/-- A delivery of the notification, as the store lists them: an empty id stands for all. -/
def NotificationDelivery.isOf (id : String) (d : NotificationDelivery τ) : Bool :=
  match keepPresent (some id) with
  | some n => d.notificationId == n
  | none => true

/-- The deliveries `refreshStatus` looks at. -/
def listedDeliveries (w : World τ) (tenantId id : String) : List (NotificationDelivery τ) :=
  w.notifications.deliveries.find fun d => d.tenantId == tenantId && d.isOf id

/-! ## Executions -/

/-- Calls that neither list deliveries nor change a record. -/
def AppOp.leavesRecords : AppOp τ → Bool
  | .notifications (.getNotification _) | .notifications (.listNotifications _)
  | .notifications (.getDelivery _) => true
  | .notifications _ | .commit _ => false
  | _ => true

section exec

variable [Timestamp τ]

/-- What a conditional write of a notification did. -/
theorem updateNotification_cases {id : String} {v : Nat} {u : NotificationUpdate τ}
    {choice : Choice} {w w' : World τ} {res : Except JsError (Option (Notification τ))}
    (h : AppOp.exec (.notifications (.updateNotification id v u)) choice w = some (res, w')) :
    (w'.notifications = w.notifications ∧ (res = .ok none →
      ∀ stored, w.notifications.notifications.get id = some stored → stored.version ≠ v) ∧
      ∀ item, res ≠ .ok (some item)) ∨
    ∃ stored, w.notifications.notifications.get id = some stored ∧ stored.version = v ∧
      w'.notifications = { w.notifications with
        notifications := w.notifications.notifications.put id (u.written stored) } ∧
      res ≠ .ok none := by
  cases hupdate : w.notifications.notifications.updateIfVersion id v u.apply with
  | mk r notifications' =>
    simp only [AppOp.exec, NotificationOp.exec, hupdate] at h
    rcases Table.updateIfVersion_eq hupdate with ⟨a, hget, hv, hr, rfl⟩ | ⟨rfl, rfl⟩
    · have hwritten : Versioned.withVersion (u.apply a) (v + 1) = u.written a := by
        rw [← hv]
        rfl
      rw [hwritten] at hr h
      subst hr
      rcases stored_cases h with ⟨rfl, rfl⟩ | ⟨message, rfl, rfl | rfl⟩
      · exact .inr ⟨a, hget, hv, rfl, fun h => by cases h⟩
      · exact .inr ⟨a, hget, hv, rfl, fun h => by cases h⟩
      · exact .inl ⟨rfl, (fun h => by cases h), (fun _ h => by cases h)⟩
    · have hstale : ∀ stored, w.notifications.notifications.get id = some stored →
          stored.version ≠ v := fun stored hget => Table.updateIfVersion_stale hupdate hget
      rcases stored_cases h with ⟨rfl, rfl⟩ | ⟨message, rfl, rfl | rfl⟩
      · exact .inl ⟨rfl, (fun _ => hstale), (fun _ h => by cases h)⟩
      · exact .inl ⟨rfl, (fun h => by cases h), (fun _ h => by cases h)⟩
      · exact .inl ⟨rfl, (fun h => by cases h), (fun _ h => by cases h)⟩

/-- Most calls leave the notification stores alone. -/
theorem leavesRecords_exec {op : AppOp τ} {choice : Choice} {w w' : World τ}
    {res : Except JsError (op.Out τ)} (hop : op.leavesRecords = true)
    (h : op.exec choice w = some (res, w')) : w'.notifications = w.notifications := by
  have hstored : ∀ {β : Type} {r : Except JsError β × World τ} {res : Except JsError β},
      r.2.notifications = w.notifications → stored choice w r = some (res, w') →
      w'.notifications = w.notifications := by
    intro β r res hr hs
    rcases stored_cases hs with ⟨-, rfl⟩ | ⟨_, -, rfl | rfl⟩
    · exact hr
    · exact hr
    · rfl
  cases op with
  | authority o => exact (o.exec_stores h).notifications
  | jobs o => exact hstored rfl h
  | schedules o => exact hstored rfl h
  | webhooks o => exact hstored rfl h
  | apiKeys o => exact hstored rfl h
  | configuration o => exact hstored rfl h
  | secretMetadata o => exact hstored rfl h
  | audit o => cases o <;> exact hstored rfl h
  | commit ops => cases hop
  | host o => rw [o.exec_world h]
  | notifications o => cases o <;> first | exact hstored rfl h | cases hop

/-- What reading one notification answers. -/
theorem getNotification_answer {id : String} {choice : Choice} {w w' : World τ}
    {res : Except JsError (Option (Notification τ))}
    (h : AppOp.exec (.notifications (.getNotification id)) choice w = some (res, w')) :
    w'.notifications = w.notifications ∧
      ∀ found, res = .ok found → w.notifications.notifications.get id = found := by
  rcases stored_cases h with ⟨rfl, rfl⟩ | ⟨message, rfl, rfl | rfl⟩
  · exact ⟨rfl, fun found hfound => Except.ok.inj hfound⟩
  · exact ⟨rfl, fun _ h => by cases h⟩
  · exact ⟨rfl, fun _ h => by cases h⟩

theorem getDelivery_answer {id : String} {choice : Choice} {w w' : World τ}
    {res : Except JsError (Option (NotificationDelivery τ))}
    (h : AppOp.exec (.notifications (.getDelivery id)) choice w = some (res, w')) :
    w'.notifications = w.notifications ∧
      ∀ found, res = .ok found → w.notifications.deliveries.get id = found := by
  rcases stored_cases h with ⟨rfl, rfl⟩ | ⟨message, rfl, rfl | rfl⟩
  · exact ⟨rfl, fun found hfound => Except.ok.inj hfound⟩
  · exact ⟨rfl, fun _ h => by cases h⟩
  · exact ⟨rfl, fun _ h => by cases h⟩

theorem listDeliveries_answer {tenantId id : String} {choice : Choice} {w w' : World τ}
    {res : Except JsError (List (NotificationDelivery τ))}
    (h : AppOp.exec (.notifications (.listDeliveries tenantId (some id))) choice w = some (res, w')) :
    w'.notifications = w.notifications ∧
      ∀ found, res = .ok found → listedDeliveries w tenantId id = found := by
  rcases stored_cases h with ⟨rfl, rfl⟩ | ⟨message, rfl, rfl | rfl⟩
  · exact ⟨rfl, fun found hfound => Except.ok.inj hfound⟩
  · exact ⟨rfl, fun _ h => by cases h⟩
  · exact ⟨rfl, fun _ h => by cases h⟩

/-- What a conditional write of a delivery did. -/
theorem updateDelivery_cases {tenantId id : String} {v : Nat} {u : NotificationDeliveryUpdate τ}
    {choice : Choice} {w w' : World τ} {res : Except JsError (Option (NotificationDelivery τ))}
    (h : AppOp.exec (.notifications (.updateDelivery tenantId id v u)) choice w = some (res, w')) :
    (w'.notifications = w.notifications ∧ ∀ delivery, res ≠ .ok (some delivery)) ∨
    ∃ stored, w.notifications.deliveries.get id = some stored ∧ stored.version = v ∧
      w'.notifications = { w.notifications with
        deliveries := w.notifications.deliveries.put id (u.written stored) } ∧
      (res = .ok (some (u.written stored)) ∨ ∃ e, res = .error e) := by
  have hsame : ∀ {r : Except JsError (Option (NotificationDelivery τ))} {w₀ : World τ},
      stored choice w (r, w₀) = some (res, w') → w₀.notifications = w.notifications →
      (∀ delivery, r ≠ .ok (some delivery)) →
      w'.notifications = w.notifications ∧ ∀ delivery, res ≠ .ok (some delivery) := by
    intro r w₀ hstored hw hr
    rcases stored_cases hstored with ⟨rfl, rfl⟩ | ⟨message, rfl, rfl | rfl⟩
    · exact ⟨hw, hr⟩
    · exact ⟨hw, fun _ hres => by cases hres⟩
    · exact ⟨rfl, fun _ hres => by cases hres⟩
  simp only [AppOp.exec, NotificationOp.exec] at h
  split at h
  · cases hupdate : w.notifications.deliveries.updateIfVersion id v u.apply with
    | mk r deliveries' =>
      rw [hupdate] at h
      rcases Table.updateIfVersion_eq hupdate with ⟨a, hget, hv, hr, rfl⟩ | ⟨hr, rfl⟩
      · have hwritten : Versioned.withVersion (u.apply a) (v + 1) = u.written a := by
          rw [← hv]
          rfl
        rw [hwritten] at hr h
        subst hr
        rcases stored_cases h with ⟨rfl, rfl⟩ | ⟨message, rfl, rfl | rfl⟩
        · exact .inr ⟨a, hget, hv, rfl, .inl rfl⟩
        · exact .inr ⟨a, hget, hv, rfl, .inr ⟨_, rfl⟩⟩
        · exact .inl ⟨rfl, fun _ hres => by cases hres⟩
      · subst hr
        exact .inl (hsame h rfl fun _ hres => by cases hres)
  · exact .inl (hsame h rfl fun _ hres => by cases hres)

/-- What the transaction of a creation did. -/
theorem commitNotification_cases {item : Notification τ} {deliveries : List (NotificationDelivery τ)}
    {choice : Choice} {w w' : World τ} {res : Except JsError Unit}
    (h : AppOp.exec (.notifications (.commitNotification item deliveries)) choice w =
      some (res, w')) :
    w'.notifications = w.notifications ∨
    (w.notifications.notifications.get item.id = none ∧
      w'.notifications.notifications = w.notifications.notifications.put item.id item ∧
      insertAll NotificationDelivery.id w.notifications.deliveries deliveries =
        some w'.notifications.deliveries) := by
  simp only [AppOp.exec, NotificationOp.exec] at h
  split at h
  · next hitem hdeliveries =>
    obtain ⟨hnone, rfl⟩ := Table.insertAbsent_eq_some hitem
    rcases stored_cases h with ⟨-, rfl⟩ | ⟨message, -, rfl | rfl⟩
    · exact .inr ⟨hnone, rfl, hdeliveries⟩
    · exact .inr ⟨hnone, rfl, hdeliveries⟩
    · exact .inl rfl
  · rcases stored_cases h with ⟨-, rfl⟩ | ⟨message, -, rfl | rfl⟩ <;> exact .inl rfl

/-- What the deletion of a delivery did. -/
theorem deleteDelivery_cases {id : String} {choice : Choice} {w w' : World τ}
    {res : Except JsError Unit}
    (h : AppOp.exec (.notifications (.deleteDelivery id)) choice w = some (res, w')) :
    w'.notifications = w.notifications ∨ w'.notifications =
      { w.notifications with deliveries := w.notifications.deliveries.erase id } := by
  rcases stored_cases h with ⟨-, rfl⟩ | ⟨message, -, rfl | rfl⟩
  · exact .inr rfl
  · exact .inr rfl
  · exact .inl rfl

/-- Channels leave the stores alone. -/
theorem host_world {o : HostOp τ} {choice : Choice} {w w' : World τ}
    {res : Except JsError (o.Out τ)} (h : AppOp.exec (.host o) choice w = some (res, w')) :
    w' = w := o.exec_world h

end exec

end AppPort
