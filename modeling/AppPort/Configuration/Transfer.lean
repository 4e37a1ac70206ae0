import AppPort.Authority.Json
import AppPort.Schedules.Service

/-!
# Configuration import

The part of `importConfiguration` that works on schedules: for each schedule of the
document, create it, leave it, report a conflict, or create it and cancel those it
replaces. Every write goes through the schedule service, and a failed one does not
stop the next.
-/

namespace AppPort

open Effects

variable {τ : Type} [Timestamp τ]

/-! ## Payloads -/

/-- `payloadOf`. -/
def payloadOf : JsValue → JsValue
  | .obj fields => .obj fields
  | _ => .obj []

/-! ## Schedules -/

/-- A schedule of an export document. -/
structure ConfigurationExportSchedule where
  type : String
  interval : String
  payload : JsValue := .obj []

/-- `scheduleKey`. -/
def scheduleKey (type interval : String) : String := type ++ "@" ++ interval

namespace ScheduleService

variable (scheduler : ScheduleService τ)

/-- `apply`: nothing in a dry run; a failed write is reported and the import goes on. -/
def applyItem (dryRun : Bool) (write : Svc τ Unit) : Svc τ Unit :=
  if dryRun then pure () else write.ignore

/-- `create` of one exported schedule. -/
def createExported (schedule : ConfigurationExportSchedule) (caller : PrincipalInput) : Svc τ Unit := do
  let _ ← scheduler.create
    { type := schedule.type, interval := schedule.interval, payload := schedule.payload } caller
  pure ()

/-- One schedule of the document, against those of the target. -/
def importSchedule (schedules : List (JobSchedule τ)) (dryRun overwrite : Bool)
    (principal : VerifiedPrincipal) (schedule : ConfigurationExportSchedule) : Svc τ Unit :=
  let sameSlot := schedules.filter fun candidate =>
    scheduleKey candidate.type candidate.interval == scheduleKey schedule.type schedule.interval
  if sameSlot.any (fun candidate =>
      (payloadOf candidate.payload).stableJson == schedule.payload.stableJson) then pure ()
  else if sameSlot.isEmpty then
    applyItem dryRun (scheduler.createExported schedule (.of principal))
  else if overwrite = false then pure ()
  else applyItem dryRun (do
    scheduler.createExported schedule (.of principal)
    Task.forEach (fun replaced => do
      let _ ← scheduler.disable principal.tenantId replaced.id (.of principal)
      pure ()) sameSlot)

/-- The schedules of `importConfiguration`. -/
def importSchedules (document : List ConfigurationExportSchedule) (dryRun overwrite : Bool)
    (caller : PrincipalInput) : Svc τ Unit := do
  let principal ← requireVerifiedPrincipal caller
  if document.isEmpty then pure ()
  else
    let listed ← scheduler.list principal.tenantId (.of principal) none
    let schedules := listed.filter fun s => s.enabled
    Task.forEach (scheduler.importSchedule schedules dryRun overwrite principal) document

end ScheduleService

end AppPort
