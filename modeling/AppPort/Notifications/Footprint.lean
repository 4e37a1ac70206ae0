import AppPort.Jobs.Footprint
import AppPort.Notifications.Service

/-!
# The calls around a delivery

Audit, reading notifications and listing deliveries, the status of a notification and
the jobs of retries: the calls they make, over any set that allows them.
-/

namespace AppPort

open Effects

variable {τ : Type}

/-- Authority calls, audit, and looking notifications up. -/
structure NotificationAmbient (calls : Set (AppOp τ)) : Prop extends Ambient calls where
  read : ∀ id, .notifications (.getNotification id) ∈ calls

/-- Deliveries are listed, and the status of notifications changes too. -/
structure NotificationWorking (calls : Set (AppOp τ)) : Prop extends NotificationAmbient calls where
  list : ∀ tenantId id, .notifications (.listDeliveries tenantId id) ∈ calls
  update : ∀ id v u, .notifications (.updateNotification id v u) ∈ calls

theorem uses_orphanedDeliveries {calls : Set (AppOp τ)}
    (hget : ∀ id, .notifications (.getDelivery id) ∈ calls) :
    (deliveries : List (NotificationDelivery τ)) →
    Task.Uses (S := services τ) calls (orphanedDeliveries deliveries)
  | [] => trivial
  | delivery :: rest => by
    unfold orphanedDeliveries
    refine Task.Uses.bind (Task.uses_perform (hget delivery.id)) fun item => ?_
    exact Task.Uses.bind (uses_orphanedDeliveries hget rest) fun _ => trivial

section ambient

variable {calls : Set (AppOp τ)} (hcalls : NotificationAmbient calls)

include hcalls

theorem NotificationAmbient.uses_storedNotification (tenantId id : String) :
    Task.Uses (S := services τ) calls (storedNotification tenantId id) :=
  Task.Uses.bind (Task.uses_perform (hcalls.read id)) fun _ => trivial

namespace NotificationService

theorem uses_audit (type : String) (item : Notification τ) (principalId : String)
    (delivery : Option (NotificationDelivery τ)) :
    Task.Uses (S := services τ) calls (audit type item principalId delivery) := by
  unfold audit
  refine Task.Uses.bind (hcalls.uses uses_randomUUID) fun _ => ?_
  exact Task.Uses.bind (hcalls.uses uses_now) fun _ => Task.uses_perform (hcalls.audit _)

variable [Timestamp τ]

theorem uses_scheduleAttempt (jobs : JobService τ) (delivery : NotificationDelivery τ) (runAt : τ)
    (hcreate : ∀ job : Job τ, job.type = NOTIFICATION_DELIVERY_JOB →
      job.payload = .obj [("deliveryId", .str delivery.id)] → .jobs (.create job) ∈ calls) :
    Task.Uses (S := services τ) calls (scheduleAttempt jobs delivery runAt) := by
  unfold scheduleAttempt
  refine Task.Uses.bind ?_ fun _ => trivial
  exact jobs.uses_systemEnqueue hcalls.toAmbient _ fun _ id t => hcreate _ rfl rfl

omit [Timestamp τ] in
theorem uses_confirmCreation (notification : Notification τ) (createdBy : String) (created : Bool) :
    Task.Uses (S := services τ) calls (confirmCreation notification createdBy created) := by
  unfold confirmCreation
  split
  · exact uses_audit hcalls ..
  · refine Task.Uses.bind (hcalls.uses_storedNotification _ _) fun existing => ?_
    split <;> trivial

variable (service : NotificationService τ)

theorem uses_scheduleRetry (updated : NotificationDelivery τ)
    (hcreate : ∀ job : Job τ, job.type = NOTIFICATION_DELIVERY_JOB →
      job.payload = .obj [("deliveryId", .str updated.id)] → .jobs (.create job) ∈ calls) :
    Task.Uses (S := services τ) calls (service.scheduleRetry updated) := by
  unfold scheduleRetry
  split
  · exact uses_scheduleAttempt hcalls _ _ _ hcreate
  · trivial

theorem uses_settlementUpdate (delivery : NotificationDelivery τ) (t : τ)
    (result : NotificationDeliveryResult) :
    Task.Uses (S := services τ) calls (service.settlementUpdate delivery t result) := by
  unfold settlementUpdate
  split
  · trivial
  · split
    · refine Task.Uses.bind (hcalls.uses uses_now) fun t' => ?_
      exact Task.Uses.bind (Task.uses_settled _ _) fun _ => trivial
    · trivial

omit [Timestamp τ] in
theorem uses_notificationId (input : NormalizedNotification τ) :
    Task.Uses (S := services τ) calls (service.notificationId input) := by
  unfold notificationId
  split
  · trivial
  · exact hcalls.uses uses_randomUUID

end NotificationService

end ambient

theorem NotificationService.uses_view [Timestamp τ] (item : Notification τ) :
    Task.Uses (S := services τ) authorityCalls (view item) := by
  unfold view
  split
  · trivial
  · exact Task.Uses.bind uses_now fun _ => trivial

/-! ## The status of a notification -/

section working

variable {calls : Set (AppOp τ)} (hcalls : NotificationWorking calls)

include hcalls

namespace NotificationService

theorem uses_transitionNotification (tenantId id : String)
    (change : Notification τ → Option (NotificationUpdate τ)) (type : Option String) :
    (attempts : Nat) → Task.Uses (S := services τ) calls
      (transitionNotification tenantId id change type attempts)
  | 0 => trivial
  | attempts + 1 => by
    unfold transitionNotification
    refine Task.Uses.bind (hcalls.uses_storedNotification _ _) fun item => ?_
    split
    · trivial
    split
    · trivial
    refine Task.Uses.bind (Task.uses_perform (hcalls.update _ _ _)) fun updated => ?_
    split
    · exact uses_audit hcalls.toNotificationAmbient ..
    · trivial
    · exact uses_transitionNotification tenantId id change type attempts

theorem uses_transitionAtClock (tenantId id : String)
    (change : Notification τ → Svc τ (Option (NotificationUpdate τ))) (type : String)
    (hchange : ∀ item, Task.Uses (S := services τ) calls (change item)) :
    (attempts : Nat) → Task.Uses (S := services τ) calls
      (transitionAtClock tenantId id change type attempts)
  | 0 => trivial
  | attempts + 1 => by
    unfold transitionAtClock
    refine Task.Uses.bind (hcalls.uses_storedNotification _ _) fun item => ?_
    split
    · trivial
    refine Task.Uses.bind (hchange _) fun updates => ?_
    split
    · trivial
    refine Task.Uses.bind (Task.uses_perform (hcalls.update _ _ _)) fun updated => ?_
    split
    · exact uses_audit hcalls.toNotificationAmbient ..
    · exact uses_transitionAtClock tenantId id change type hchange attempts

variable [Timestamp τ]

omit [Timestamp τ] in
theorem uses_refreshStatus (tenantId id : String) :
    Task.Uses (S := services τ) calls (refreshStatus tenantId id) := by
  unfold refreshStatus
  refine Task.Uses.bind (Task.uses_perform (hcalls.list _ _)) fun deliveries => ?_
  refine Task.Uses.bind (hcalls.uses uses_now) fun t => ?_
  exact uses_transitionNotification hcalls ..

omit [Timestamp τ] in
theorem uses_reportSettlement (notification : Option (Notification τ)) (type : String)
    (updated : NotificationDelivery τ) : Task.Uses (S := services τ) calls
      (reportSettlement notification type updated) := by
  unfold reportSettlement
  split
  · trivial
  · refine Task.Uses.bind (uses_audit hcalls.toNotificationAmbient ..) fun _ => ?_
    exact uses_refreshStatus hcalls _ _

theorem uses_afterSettlement (service : NotificationService τ)
    (notification : Option (Notification τ)) (type : String) (updated : NotificationDelivery τ)
    (hcreate : ∀ job : Job τ, job.type = NOTIFICATION_DELIVERY_JOB →
      job.payload = .obj [("deliveryId", .str updated.id)] → .jobs (.create job) ∈ calls) :
    Task.Uses (S := services τ) calls (service.afterSettlement notification type updated) := by
  unfold afterSettlement
  refine Task.Uses.bind
    (service.uses_scheduleRetry hcalls.toNotificationAmbient updated hcreate) fun _ => ?_
  exact Task.Uses.bind (uses_reportSettlement hcalls ..) fun _ => trivial

end NotificationService

end working

end AppPort
