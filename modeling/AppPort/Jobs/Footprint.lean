import AppPort.Configuration.Transfer
import AppPort.Runtime.Transaction

/-!
# The calls of the job service

For each function the calls it may make, over any set that allows them. What depends on
a value, the type of a created job above all, is asked of the set for exactly the
values that pass the checks before it.
-/

namespace AppPort

open Effects

variable {τ : Type} [Timestamp τ]

/-- The update that disables a schedule. -/
def ScheduleUpdate.disables (u : ScheduleUpdate τ) : Bool :=
  u.enabled == some false && u.nextRunAt.isNone

/-- Calls that look a schedule up or disable it. -/
def ScheduleOp.isAmbient : ScheduleOp τ → Bool
  | .get .. | .list .. => true
  | .updateSchedule _ _ _ u => u.disables
  | .create _ | .listDue .. => false

/-- The calls around every write: authority calls, audit, and looking schedules up. -/
structure Ambient (calls : Set (AppOp τ)) : Prop where
  authority : authorityCalls ⊆ calls
  audit : ∀ event, .audit event ∈ calls
  schedules : ∀ op : ScheduleOp τ, op.isAmbient = true → .schedules op ∈ calls

section uses

variable {calls : Set (AppOp τ)} (hcalls : Ambient calls)

include hcalls

omit [Timestamp τ] in
theorem Ambient.uses {α : Type} {t : Svc τ α} (h : Task.Uses (S := services τ) authorityCalls t) :
    Task.Uses (S := services τ) calls t := h.mono hcalls.authority

omit [Timestamp τ] in
theorem Ambient.uses_schedules {op : ScheduleOp τ} (h : op.isAmbient = true) :
    Task.Uses (S := services τ) calls op.perform := Task.uses_perform (hcalls.schedules op h)

omit [Timestamp τ] in
theorem Ambient.uses_jobAudit (type jobId tenantId principalId : String) (timestamp : τ)
    (success : Bool) (details : List (String × String)) : Task.Uses (S := services τ) calls
      (JobService.jobAudit type jobId tenantId principalId timestamp success details) :=
  Task.Uses.bind (hcalls.uses uses_randomUUID) fun _ => Task.uses_perform (hcalls.audit _)

omit [Timestamp τ] in
theorem Ambient.uses_scheduleAudit (type : String) (schedule : JobSchedule τ) (principalId : String)
    (timestamp : τ) (details : List (String × String)) : Task.Uses (S := services τ) calls
      (JobService.scheduleAudit type schedule principalId timestamp details) :=
  Task.Uses.bind (hcalls.uses uses_randomUUID) fun _ => Task.uses_perform (hcalls.audit _)

namespace JobService

variable (service : JobService τ)

theorem uses_createJobRecord (input : CreateJobInput τ) (principalId : String)
    (applicationId : Option String) (principal : Option VerifiedPrincipal)
    (authorizedBy : Option String)
    (hcreate : ∀ id t, .jobs (.create (service.jobRecord input id t applicationId principal
      authorizedBy)) ∈ calls) : Task.Uses (S := services τ) calls
      (service.createJobRecord input principalId applicationId principal authorizedBy) := by
  unfold createJobRecord
  refine Task.Uses.bind (hcalls.uses uses_randomUUID) fun id => ?_
  refine Task.Uses.bind (hcalls.uses uses_now) fun t => ?_
  refine Task.Uses.bind (Task.uses_perform (hcreate id t)) fun _ => ?_
  exact (hcalls.uses_jobAudit ..).bind fun _ => trivial

/-- The internal queue creates jobs of system types, as they are given to it. -/
theorem uses_systemEnqueue (input : CreateJobInput τ)
    (hcreate : isSystemType input.type = true →
      ∀ id t, .jobs (.create (service.jobRecord input id t none none none)) ∈ calls) :
    Task.Uses (S := services τ) calls (service.systemEnqueue input) := by
  unfold systemEnqueue
  split
  · next hsystem => exact service.uses_createJobRecord hcalls _ _ _ _ _ (hcreate hsystem)
  · trivial

/-- `enqueue` creates jobs of types that pass both checks. -/
theorem uses_enqueue (input : CreateJobInput τ) (caller : PrincipalInput)
    (hcreate : assertApplicationJobType input.type = .ok () →
      service.assertAllowedType input.type service.authority.isSome = .ok () →
      ∀ tenantId id t applicationId principal authorizedBy, .jobs (.create
        (service.jobRecord { input with tenantId } id t applicationId principal authorizedBy)) ∈
          calls) :
    Task.Uses (S := services τ) calls (service.enqueue input caller) := by
  unfold enqueue
  refine Task.Uses.ofExcept_bind fun _ happlication => ?_
  refine Task.Uses.ofExcept_bind fun _ hallowed => ?_
  have hcreate := hcreate happlication hallowed
  split
  · exact service.uses_createJobRecord hcalls _ _ _ _ _ fun id t =>
      hcreate input.tenantId id t none none none
  · next gateway _ =>
    refine Task.Uses.bind (hcalls.uses (uses_requireVerifiedPrincipal _)) fun principal => ?_
    refine Task.Uses.bind (Task.uses_settled _ _) fun _ => ?_
    refine Task.Uses.bind (Task.uses_settled _ _) fun tenantId => ?_
    exact gateway.uses_execute hcalls.authority _ _ _ _ fun _ _ =>
      service.uses_createJobRecord hcalls _ _ _ _ _ fun id t => hcreate _ id t _ _ _

theorem uses_schedule (input : CreateJobInput τ) (caller : PrincipalInput)
    (hcreate : assertApplicationJobType input.type = .ok () →
      service.assertAllowedType input.type service.authority.isSome = .ok () →
      ∀ tenantId id t applicationId principal authorizedBy, .jobs (.create
        (service.jobRecord { input with tenantId } id t applicationId principal authorizedBy)) ∈
          calls) :
    Task.Uses (S := services τ) calls (service.schedule input caller) := by
  unfold schedule
  split
  · trivial
  · exact service.uses_enqueue hcalls input caller hcreate

omit [Timestamp τ] in
theorem uses_disableRead (tenantId scheduleId : String) (schedule : JobSchedule τ)
    (principalId : String) : Task.Uses (S := services τ) calls
      (disableRead tenantId scheduleId schedule principalId) := by
  unfold disableRead
  refine Task.Uses.bind (hcalls.uses_schedules rfl) fun updated => ?_
  split
  · trivial
  · refine Task.Uses.bind (hcalls.uses uses_now) fun t => ?_
    exact (hcalls.uses_scheduleAudit ..).bind fun _ => trivial

theorem uses_disableSchedule (tenantId scheduleId : String) (caller : PrincipalInput) :
    Task.Uses (S := services τ) calls (service.disableSchedule tenantId scheduleId caller) := by
  unfold disableSchedule
  split
  · refine Task.Uses.bind (hcalls.uses_schedules rfl) fun schedule => ?_
    split
    · trivial
    · exact uses_disableRead hcalls ..
  · next gateway _ =>
    refine Task.Uses.bind (hcalls.uses (uses_requireVerifiedPrincipal _)) fun principal => ?_
    refine Task.Uses.bind (Task.uses_settled _ _) fun tenant => ?_
    refine Task.Uses.bind (hcalls.uses_schedules rfl) fun schedule => ?_
    split
    · trivial
    · split
      · trivial
      · exact gateway.uses_execute hcalls.authority _ _ _ _ fun _ _ => uses_disableRead hcalls ..

theorem uses_createScheduleRecord (input : ScheduleRecurringInput) (principalId : String)
    (applicationId : Option String) (principal : Option VerifiedPrincipal)
    (authorizedBy : Option String)
    (hcreate : ∀ id (t next : τ), .schedules (.create (scheduleRecord input id t next principalId
      applicationId principal authorizedBy)) ∈ calls) : Task.Uses (S := services τ) calls
      (createScheduleRecord (τ := τ) input principalId applicationId principal authorizedBy) := by
  unfold createScheduleRecord
  refine Task.Uses.bind (hcalls.uses uses_randomUUID) fun id => ?_
  refine Task.Uses.bind (hcalls.uses uses_now) fun t => ?_
  refine Task.Uses.bind (Task.uses_settled _ _) fun next => ?_
  refine Task.Uses.bind (Task.uses_perform (hcreate id t next)) fun _ => ?_
  exact (hcalls.uses_scheduleAudit ..).bind fun _ => trivial

/-- `scheduleRecurring` creates schedules of types that pass both checks. -/
theorem uses_scheduleRecurring (input : ScheduleRecurringInput) (caller : PrincipalInput)
    (hcreate : assertApplicationJobType input.type = .ok () →
      service.assertAllowedType input.type service.authority.isSome = .ok () →
      ∀ tenantId id (t next : τ) principalId applicationId principal authorizedBy,
        .schedules (.create (scheduleRecord { input with tenantId } id t next principalId
          applicationId principal authorizedBy)) ∈ calls) :
    Task.Uses (S := services τ) calls (service.scheduleRecurring input caller) := by
  unfold scheduleRecurring
  refine Task.Uses.bind (hcalls.uses uses_now) fun t => ?_
  refine Task.Uses.bind (Task.uses_settled _ _) fun _ => ?_
  refine Task.Uses.ofExcept_bind fun _ happlication => ?_
  refine Task.Uses.ofExcept_bind fun _ hallowed => ?_
  have hcreate := hcreate happlication hallowed
  split
  · exact uses_createScheduleRecord hcalls _ _ _ _ _ fun id t next =>
      hcreate input.tenantId id t next _ none none none
  · next gateway _ =>
    refine Task.Uses.bind (hcalls.uses (uses_requireVerifiedPrincipal _)) fun principal => ?_
    refine Task.Uses.bind (Task.uses_settled _ _) fun _ => ?_
    refine Task.Uses.bind (Task.uses_settled _ _) fun tenantId => ?_
    exact gateway.uses_execute hcalls.authority _ _ _ _ fun _ _ =>
      uses_createScheduleRecord hcalls _ _ _ _ _ fun id t next => hcreate _ id t next _ _ _ _

/-- One due schedule: its job, its next run, and an audit record. -/
theorem uses_processSchedule (tenantId : String) (t : τ) (schedule : JobSchedule τ)
    (hcreate : ∀ id, .jobs (.create (scheduledJob schedule id t)) ∈ calls)
    (hadvance : ∀ next, .schedules (.updateSchedule tenantId schedule.id schedule.version
      { nextRunAt := some next }) ∈ calls) :
    Task.Uses (S := services τ) calls (processSchedule tenantId t schedule) := by
  unfold processSchedule
  refine Task.Uses.bind (hcalls.uses uses_randomUUID) fun jobId => ?_
  refine Task.Uses.bind (Task.uses_perform (hcreate jobId)) fun _ => ?_
  refine Task.Uses.bind (Task.uses_settled _ _) fun nextRunAt => ?_
  refine Task.Uses.bind (Task.uses_perform (hadvance nextRunAt)) fun updated => ?_
  split
  · exact Task.Uses.bind (hcalls.uses uses_randomUUID) fun _ => Task.uses_perform (hcalls.audit _)
  · trivial

theorem uses_processRecurringSchedules (tenantId : String)
    (hcreate : ∀ schedule id t, .jobs (.create (scheduledJob schedule id t)) ∈ calls)
    (hschedules : ∀ op : ScheduleOp τ, (∀ s, op ≠ .create s) → .schedules op ∈ calls) :
    Task.Uses (S := services τ) calls (processRecurringSchedules (τ := τ) tenantId) := by
  unfold processRecurringSchedules
  refine Task.Uses.bind (hcalls.uses uses_now) fun t => ?_
  refine Task.Uses.bind (Task.uses_perform (hschedules _ fun _ h => by cases h)) fun due => ?_
  refine Task.Uses.bind (Task.Uses.forEach due fun schedule _ => ?_) fun _ => trivial
  exact uses_processSchedule hcalls tenantId t schedule (fun id => hcreate schedule id t)
    fun _ => hschedules _ fun _ h => by cases h

end JobService

namespace ScheduleService

variable (scheduler : ScheduleService τ)

theorem uses_create (input : ScheduleRecurringInput) (caller : PrincipalInput)
    (hcreate : assertApplicationJobType input.type = .ok () →
      scheduler.jobs.assertAllowedType input.type scheduler.jobs.authority.isSome = .ok () →
      ∀ tenantId id (t next : τ) principalId applicationId principal authorizedBy,
        .schedules (.create (JobService.scheduleRecord { input with tenantId } id t next principalId
          applicationId principal authorizedBy)) ∈ calls) :
    Task.Uses (S := services τ) calls (scheduler.create input caller) := by
  unfold create
  exact Task.Uses.bind (Task.uses_settled _ _) fun _ =>
    scheduler.jobs.uses_scheduleRecurring hcalls input caller hcreate

theorem uses_list (tenantId : String) (caller : PrincipalInput) (createdBy : Option String) :
    Task.Uses (S := services τ) calls (scheduler.list tenantId caller createdBy) := by
  unfold list
  refine Task.Uses.bind (hcalls.uses (uses_requireVerifiedPrincipal _)) fun principal => ?_
  refine Task.Uses.bind (Task.uses_settled _ _) fun tenant => ?_
  refine Task.Uses.bind (Task.uses_settled _ _) fun gateway => ?_
  refine gateway.uses_execute hcalls.authority _ _ _ _ fun _ _ => ?_
  exact Task.Uses.bind (hcalls.uses_schedules rfl) fun _ => trivial

/-- Schedules an import creates pass both checks, like any other. -/
theorem uses_importSchedules (document : List ConfigurationExportSchedule) (dryRun overwrite : Bool)
    (caller : PrincipalInput)
    (hcreate : ∀ input : ScheduleRecurringInput, assertApplicationJobType input.type = .ok () →
      scheduler.jobs.assertAllowedType input.type scheduler.jobs.authority.isSome = .ok () →
      ∀ tenantId id (t next : τ) principalId applicationId principal authorizedBy,
        .schedules (.create (JobService.scheduleRecord { input with tenantId } id t next principalId
          applicationId principal authorizedBy)) ∈ calls) :
    Task.Uses (S := services τ) calls
      (scheduler.importSchedules document dryRun overwrite caller) := by
  have happly : ∀ {t : Svc τ Unit}, Task.Uses (S := services τ) calls t →
      Task.Uses (S := services τ) calls (applyItem dryRun t) := by
    intro t ht
    unfold applyItem
    split
    · trivial
    · exact ht.ignore
  unfold importSchedules
  refine Task.Uses.bind (hcalls.uses (uses_requireVerifiedPrincipal _)) fun principal => ?_
  split
  · trivial
  refine Task.Uses.bind (scheduler.uses_list hcalls ..) fun listed => ?_
  refine Task.Uses.forEach document fun schedule _ => ?_
  have hnew : Task.Uses (S := services τ) calls
      (scheduler.createExported schedule (.of principal)) :=
    (scheduler.uses_create hcalls _ _ (hcreate _)).bind fun _ => trivial
  unfold importSchedule
  simp only
  split
  · trivial
  split
  · exact happly hnew
  split
  · trivial
  · refine happly (hnew.bind fun _ => Task.Uses.forEach _ fun replaced _ => ?_)
    exact (scheduler.jobs.uses_disableSchedule hcalls ..).bind fun _ => trivial

end ScheduleService

end uses

/-! ## Execution -/

/-- The calls of an execution: everything but creation. -/
structure Working (calls : Set (AppOp τ)) : Prop extends Ambient calls where
  jobs : ∀ op : JobOp τ, (∀ job, op ≠ .create job) → .jobs op ∈ calls
  start : ∀ job execution, .host (.startJobHandler job execution) ∈ calls

section execution

variable {calls : Set (AppOp τ)} (hcalls : Working calls)

include hcalls

omit [Timestamp τ] in
theorem Working.uses_jobs {op : JobOp τ} (h : ∀ job, op ≠ .create job) :
    Task.Uses (S := services τ) calls op.perform := Task.uses_perform (hcalls.jobs op h)

namespace JobService

omit [Timestamp τ] in
theorem uses_completeJob (job : Job τ) (principalId : String) (runId : Option String) :
    Task.Uses (S := services τ) calls (completeJob job principalId runId) := by
  unfold completeJob
  refine Task.Uses.bind (hcalls.uses uses_now) fun completedAt => ?_
  exact Task.Uses.bind (hcalls.uses_jobs fun _ h => by cases h) fun _ => hcalls.uses_jobAudit ..

theorem uses_recordExecutionFailure (job : Job τ) (principalId : String) (error : JsError) :
    Task.Uses (S := services τ) calls (recordExecutionFailure job principalId error) := by
  unfold recordExecutionFailure
  simp only
  split
  · refine Task.Uses.bind (hcalls.uses uses_now) fun failedAt => ?_
    exact Task.Uses.bind (hcalls.uses_jobs fun _ h => by cases h) fun _ => hcalls.uses_jobAudit ..
  · refine Task.Uses.bind (hcalls.uses uses_now) fun t => ?_
    refine Task.Uses.bind (Task.uses_settled _ _) fun nextAttemptAt => ?_
    refine Task.Uses.bind (hcalls.uses_jobs fun _ h => by cases h) fun _ => ?_
    exact Task.Uses.bind (hcalls.uses uses_now) fun _ => hcalls.uses_jobAudit ..

omit [Timestamp τ] in
theorem uses_deny (job : Job τ) (reason : String) :
    Task.Uses (S := services τ) calls (deny job reason) := by
  unfold deny
  refine Task.Uses.bind (hcalls.uses_jobs fun _ h => by cases h) fun _ => ?_
  exact Task.Uses.bind (hcalls.uses uses_now) fun _ => hcalls.uses_jobAudit ..

theorem uses_settleError (job : Job τ) (tenantId jobId principalId : String) (error : JsError) :
    Task.Uses (S := services τ) calls (settleError job tenantId jobId principalId error) := by
  unfold settleError
  split
  · exact uses_deny hcalls ..
  · exact uses_deny hcalls ..
  all_goals
    first
    | exact uses_recordExecutionFailure hcalls ..
    | refine Task.Uses.bind (hcalls.uses uses_now) fun t => ?_
      refine Task.Uses.bind (Task.uses_settled _ _) fun nextAttemptAt => ?_
      exact Task.Uses.bind (hcalls.uses_jobs fun _ h => by cases h) fun _ => trivial

theorem uses_runClaimed (service : JobService τ)
    (hhandlers : ∀ type handler, service.handlers type = some handler → ∀ job execution,
      Task.Uses (S := services τ) calls (handler job execution))
    (claimed : Job τ) (tenantId jobId : String) :
    Task.Uses (S := services τ) calls (service.runClaimed claimed tenantId jobId) := by
  unfold runClaimed
  split
  · exact Task.Uses.bind (hcalls.uses_jobs fun _ h => by cases h) fun _ => trivial
  next handler hhandler =>
  have hinvoke : ∀ execution, Task.Uses (S := services τ) calls
      (invokeHandler handler claimed execution) := fun execution =>
    Task.Uses.bind (Task.uses_perform (hcalls.start _ _)) fun _ =>
      hhandlers _ _ hhandler claimed execution
  have hlegacy : Task.Uses (S := services τ) calls (executeLegacyHandler claimed handler) := by
    unfold executeLegacyHandler
    refine Task.Uses.tryCatch ((hinvoke none).bind fun _ => ?_) fun error => ?_
    · exact (uses_completeJob hcalls ..).bind fun _ => trivial
    · exact (uses_recordExecutionFailure hcalls ..).bind fun _ => trivial
  split
  · exact hlegacy
  next gateway _ =>
  split
  · exact hlegacy
  split
  · exact (uses_deny hcalls ..).bind fun _ => trivial
  next durable _ =>
  refine Task.Uses.bind (hcalls.uses (gateway.uses_attest _ _)).attempt fun attested => ?_
  split
  · exact (uses_deny hcalls ..).bind fun _ => trivial
  · unfold runAuthorized
    refine Task.Uses.bind (hcalls.uses (uses_mintVerifiedPrincipal _ _)) fun principal => ?_
    refine Task.Uses.tryCatch (Task.Uses.bind ?_ fun _ => ?_) fun error => ?_
    · exact gateway.uses_execute hcalls.authority _ _ _ _ fun _ _ => hinvoke _
    · exact (uses_completeJob hcalls ..).bind fun _ => trivial
    · exact (uses_settleError hcalls ..).bind fun _ => trivial

/-- `executeJob` creates nothing. -/
theorem uses_executeJob (service : JobService τ)
    (hhandlers : ∀ type handler, service.handlers type = some handler → ∀ job execution,
      Task.Uses (S := services τ) calls (handler job execution))
    (tenantId jobId workerId : String) :
    Task.Uses (S := services τ) calls (service.executeJob tenantId jobId workerId) := by
  have hclaim : ∀ job, Task.Uses (S := services τ) calls
      (service.claimAndRun job tenantId jobId) := by
    intro job
    unfold claimAndRun
    refine Task.Uses.bind (hcalls.uses uses_now) fun t => ?_
    refine Task.Uses.bind (Task.uses_settled _ _) fun lease => ?_
    refine Task.Uses.bind (hcalls.uses_jobs fun _ h => by cases h) fun claimed => ?_
    split
    · trivial
    · exact uses_runClaimed hcalls service hhandlers ..
  unfold executeJob
  refine Task.Uses.bind (hcalls.uses_jobs fun _ h => by cases h) fun job => ?_
  split
  · trivial
  refine Task.Uses.bind (hcalls.uses uses_now) fun nowIso => ?_
  split
  · refine Task.Uses.bind ?_ fun counted => ?_
    · unfold countAbandoned
      simp only
      split
      · refine Task.Uses.bind (hcalls.uses_jobs fun _ h => by cases h) fun failed => ?_
        split
        · exact (hcalls.uses_jobAudit ..).bind fun _ => trivial
        · trivial
      · exact hcalls.uses_jobs fun _ h => by cases h
    · split
      · trivial
      · exact hclaim _
  · split
    · trivial
    · exact hclaim _

theorem uses_retry (service : JobService τ) (tenantId jobId : String) (caller : PrincipalInput) :
    Task.Uses (S := services τ) calls (service.retry tenantId jobId caller) := by
  have hreset : ∀ job principalId, Task.Uses (S := services τ) calls
      (resetJob job principalId) := by
    intro job principalId
    unfold resetJob
    refine Task.Uses.bind (hcalls.uses uses_now) fun t => ?_
    refine Task.Uses.bind (hcalls.uses_jobs fun _ h => by cases h) fun updated => ?_
    split
    · trivial
    · exact (hcalls.uses_jobAudit ..).bind fun _ => trivial
  unfold retry
  refine Task.Uses.bind (hcalls.uses_jobs fun _ h => by cases h) fun job => ?_
  split
  · trivial
  split
  · exact hreset ..
  next gateway _ =>
  refine Task.Uses.bind (hcalls.uses (uses_requireVerifiedPrincipal _)) fun principal => ?_
  refine Task.Uses.bind (Task.uses_settled _ _) fun tenant => ?_
  refine Task.Uses.bind (hcalls.uses_jobs fun _ h => by cases h) fun owned => ?_
  split
  · trivial
  split
  · trivial
  · exact gateway.uses_execute hcalls.authority _ _ _ _ fun _ _ => hreset ..

end JobService

end execution

end AppPort
