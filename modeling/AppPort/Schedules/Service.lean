import AppPort.Jobs.Service

/-!
# The schedule service

`ScheduleService`: the public face of recurring schedules. Creation and cancellation
are the job service's; reads are authorized here.
-/

namespace AppPort

open Effects

variable {τ : Type} [Timestamp τ]

structure ScheduleService (τ : Type) where
  jobs : JobService τ
  /-- The policy enforcement point of reads. -/
  authority : Option ServiceGateway

/-- `validateInput`. -/
def validateScheduleInput (input : ScheduleRecurringInput) : Except JsError Unit :=
  if isBlank input.type then .error (.other "type is required")
  else if (intervalMs input.interval).isNone then
    .error (.other "interval must match <number><s|m|h|d>")
  else .ok ()

namespace ScheduleService

variable (service : ScheduleService τ)

/-- `gateway()`. -/
def gateway : Except JsError ServiceGateway :=
  match service.authority with
  | some gateway => .ok gateway
  | none => .error (serviceError .authorityUnavailable
      "Schedules have no AuthBoundry authority configured")

/-- `create`. -/
def create (input : ScheduleRecurringInput) (caller : PrincipalInput) : Svc τ (JobSchedule τ) := do
  check (validateScheduleInput input)
  service.jobs.scheduleRecurring input caller

/-- `get`. -/
def get (tenantId id : String) (caller : PrincipalInput) : Svc τ (Option (JobSchedule τ)) := do
  let principal ← requireVerifiedPrincipal caller
  let tenant ← check (resolveTenant (some tenantId) principal)
  let schedule : Option (JobSchedule τ) ← (ScheduleOp.get tenant id).perform
  match schedule with
  | none => pure none
  | some schedule => do
    let gateway ← check service.gateway
    if schedule.applicationId ≠ some gateway.application then pure none
    else
      gateway.execute "schedules.read" (.of principal)
        { type := "schedule", tenantId := tenant, id := some id
          attributes := [("createdBy", schedule.createdBy)] }
        { service := "schedules" }
        fun _ _ => pure (some schedule)

/-- `list`. -/
def list (tenantId : String) (caller : PrincipalInput) (createdBy : Option String) :
    Svc τ (List (JobSchedule τ)) := do
  let principal ← requireVerifiedPrincipal caller
  let tenant ← check (resolveTenant (some tenantId) principal)
  let gateway ← check service.gateway
  gateway.execute "schedules.read" (.of principal)
    { type := "schedule", tenantId := tenant, attributes := [("createdBy", createdBy.getD "*")] }
    { service := "schedules" }
    fun _ _ => do
      let all : List (JobSchedule τ) ← (ScheduleOp.list tenant).perform
      let schedules := all.filter fun s => s.applicationId == some gateway.application
      pure (if present createdBy then schedules.filter fun s => some s.createdBy == createdBy
        else schedules)

/-- `disable`. -/
def disable (tenantId id : String) (caller : PrincipalInput) : Svc τ (Option (JobSchedule τ)) :=
  service.jobs.disableSchedule tenantId id caller

end ScheduleService

end AppPort
