import AppPort.Authority.Gateway
import Mathlib.Algebra.Group.Nat.Defs

/-!
# The job service

`JobService`, method by method: creation (directly, by schedule, by the internal
system queue), `retry`, `executeJob` with its lease takeover and its settlements,
and `processRecurringSchedules`. `executeJob` is cut where its early returns stand;
each piece carries the lines of the source it embeds.

Every write after a claim is conditional on the claimed version. Without an
authority the service falls back to its legacy rules, which authorize nothing.
-/

namespace AppPort

open Effects

variable {τ : Type} [Timestamp τ]

def DEFAULT_MAX_ATTEMPTS : Int := 5
def INITIAL_RETRY_DELAY_MS : Nat := 1000
def LEASE_DURATION_MS : Nat := 30000
def SYSTEM_JOB_TYPE_PREFIX : String := "appport."

/-- What a job's handler does once it is invoked. -/
abbrev JobHandler (τ : Type) := Job τ → Option (JobExecution τ) → Svc τ Unit

/-- The configuration of a job service, and its registered handlers. -/
structure JobService (τ : Type) where
  /-- The policy enforcement point; without it the legacy rules apply. -/
  authority : Option ServiceGateway
  maxRetryAttempts : Int := DEFAULT_MAX_ATTEMPTS
  leaseDurationMs : Nat := LEASE_DURATION_MS
  /-- `allowedTypes`; an empty list allows every type. -/
  allowedTypes : List String := []
  handlers : String → Option (JobHandler τ) := fun _ => none

structure CreateJobInput (τ : Type) where
  tenantId : Option String := none
  type : String
  payload : JsValue := .undefined
  runAt : Option τ := none
  maxAttempts : Option Int := none
  delegationId : Option String := none
  /-- The object the caller passed, for the fields that claim an actor. -/
  raw : JsValue := .undefined

structure ScheduleRecurringInput where
  tenantId : Option String := none
  type : String
  payload : JsValue := .undefined
  interval : String
  delegationId : Option String := none
  createdBy : Option String := none
  /-- The object the caller passed, for the fields that claim an actor. -/
  raw : JsValue := .undefined

/-! ## Types and intervals -/

/-- `type.startsWith(SYSTEM_JOB_TYPE_PREFIX)`. -/
def isSystemType (type : String) : Bool := hasPrefix type SYSTEM_JOB_TYPE_PREFIX

/-- `assertApplicationJobType`. -/
def assertApplicationJobType (type : String) : Except JsError Unit :=
  if isSystemType type then
    .error (.other ("Job type \"" ++ type ++ "\" is reserved for AppPort Services"))
  else .ok ()

/-- The milliseconds `^(\d+)([smhd])$` stands for. -/
def intervalMs (interval : String) : Option Nat :=
  match interval.toList.reverse with
  | [] => none
  | unit :: digits =>
    let unitMs : Option Nat :=
      if unit = 's' then some 1000
      else if unit = 'm' then some (60 * 1000)
      else if unit = 'h' then some (60 * 60 * 1000)
      else if unit = 'd' then some (24 * 60 * 60 * 1000)
      else none
    match unitMs, digits? (String.ofList digits.reverse) with
    | some ms, some value => some (value * ms)
    | _, _ => none

/-- `nextRunTime`: an invalid interval or a date out of range throws. -/
def nextRunTime (now : τ) (interval : String) : Except JsError τ :=
  match intervalMs interval with
  | none => .error (.other ("Invalid interval format: " ++ interval))
  | some ms => laterThan now ms

namespace JobService

variable (service : JobService τ)

/-- `assertAllowedType`. -/
def assertAllowedType (type : String) (authorityMode : Bool) : Except JsError Unit :=
  if service.allowedTypes = [] ∨ type ∈ service.allowedTypes then .ok ()
  else
    let message := "Job type \"" ++ type ++ "\" is not declared in appport.toml"
    .error (if authorityMode then serviceError .invalidRequest message else .other message)

/-- An audit record of one job. -/
def jobAudit (type : String) (jobId tenantId principalId : String) (timestamp : τ) (success : Bool)
    (details : List (String × String)) : Svc τ Unit := do
  let id ← randomUUID
  (AuditOp.job { id, type, jobId := some jobId, tenantId, principalId, timestamp, success, details }).perform

/-- `recordScheduleAudit`, given its time. -/
def scheduleAudit (type : String) (schedule : JobSchedule τ) (principalId : String) (timestamp : τ)
    (details : List (String × String)) : Svc τ Unit := do
  let id ← randomUUID
  (AuditOp.job { id, type, scheduleId := some schedule.id, tenantId := schedule.tenantId
                 principalId, timestamp, success := true, details }).perform

/-! ## Creation -/

/-- The record `createJobRecord` writes. -/
def jobRecord (input : CreateJobInput τ) (id : String) (now : τ) (applicationId : Option String)
    (principal : Option VerifiedPrincipal) (authorizedBy : Option String) : Job τ where
  id := id
  tenantId := input.tenantId.getD ""
  applicationId := keepPresent applicationId
  type := input.type
  payload := input.payload
  status := if input.runAt.getD now ≤ now then .pending else .scheduled
  runAt := input.runAt.getD now
  attemptCount := 0
  maxAttempts := input.maxAttempts.getD service.maxRetryAttempts
  createdAt := now
  principal := principal.bind fun p =>
    (keepPresent authorizedBy).map fun by_ =>
      toDurablePrincipal p (input.delegationId <|> p.delegationId) (some by_)
  version := 1

/-- `createJobRecord`. -/
def createJobRecord (input : CreateJobInput τ) (principalId : String)
    (applicationId : Option String) (principal : Option VerifiedPrincipal)
    (authorizedBy : Option String) : Svc τ (Job τ) := do
  let id ← randomUUID
  let t ← now
  let job := service.jobRecord input id t applicationId principal authorizedBy
  (JobOp.create job).perform
  jobAudit "job.created" job.id job.tenantId principalId t true [("jobType", job.type)]
  pure job

/-- `systemJobs(service).enqueue`: the internal queue of AppPort Services itself. -/
def systemEnqueue (input : CreateJobInput τ) : Svc τ (Job τ) :=
  if isSystemType input.type then service.createJobRecord input "system" none none none
  else throw (.other ("System job types must start with \"" ++ SYSTEM_JOB_TYPE_PREFIX ++ "\""))

/-- The attributes `jobs.create` and `schedules.create` authorize. -/
def creationAttributes (type : String) (delegationId : Option String) : List (String × String) :=
  ("jobType", type) :: (match keepPresent delegationId with
    | some d => [("delegationId", d)]
    | none => [])

/-- `enqueue`. -/
def enqueue (input : CreateJobInput τ) (caller : PrincipalInput) : Svc τ (Job τ) := do
  check (assertApplicationJobType input.type)
  check (service.assertAllowedType input.type service.authority.isSome)
  match service.authority with
  | none => service.createJobRecord input "system" none none none
  | some gateway => do
    let principal ← requireVerifiedPrincipal caller
    check (rejectCallerActor input.raw principal)
    let tenantId ← check (resolveTenant input.tenantId principal)
    gateway.execute "jobs.create" (.of principal)
      { type := "job", tenantId
        attributes := creationAttributes input.type (input.delegationId <|> principal.delegationId) }
      { service := "jobs" }
      fun context _ => service.createJobRecord { input with tenantId := some tenantId }
        principal.principalId (some gateway.application) (some principal)
        (some context.authorization.decisionId)

/-- `schedule`: an `enqueue` that must say when. -/
def schedule (input : CreateJobInput τ) (caller : PrincipalInput) : Svc τ (Job τ) :=
  match input.runAt with
  | none => throw (if service.authority.isSome then
      serviceError .invalidRequest "schedule() requires runAt" else .other "schedule() requires runAt")
  | some _ => service.enqueue input caller

/-- The record `createScheduleRecord` writes. -/
def scheduleRecord (input : ScheduleRecurringInput) (id : String) (now nextRunAt : τ)
    (principalId : String) (applicationId : Option String) (principal : Option VerifiedPrincipal)
    (authorizedBy : Option String) : JobSchedule τ where
  id := id
  tenantId := input.tenantId.getD ""
  applicationId := keepPresent applicationId
  type := input.type
  payload := input.payload
  interval := input.interval
  nextRunAt := nextRunAt
  enabled := true
  createdAt := now
  createdBy := principalId
  principal := principal.bind fun p =>
    (keepPresent authorizedBy).map fun by_ =>
      toDurablePrincipal p (input.delegationId <|> p.delegationId) (some by_)
  version := 1

/-- `createScheduleRecord`. -/
def createScheduleRecord (input : ScheduleRecurringInput) (principalId : String)
    (applicationId : Option String) (principal : Option VerifiedPrincipal)
    (authorizedBy : Option String) : Svc τ (JobSchedule τ) := do
  let id ← randomUUID
  let t ← now
  let nextRunAt ← check (nextRunTime t input.interval)
  let schedule := scheduleRecord input id t nextRunAt principalId applicationId principal authorizedBy
  (ScheduleOp.create schedule).perform
  scheduleAudit "job.schedule.created" schedule principalId t
    [("jobType", schedule.type), ("interval", schedule.interval)]
  pure schedule

/-- `scheduleRecurring`. -/
def scheduleRecurring (input : ScheduleRecurringInput) (caller : PrincipalInput) :
    Svc τ (JobSchedule τ) := do
  let t ← now
  let _ ← check (nextRunTime t input.interval)
  check (assertApplicationJobType input.type)
  check (service.assertAllowedType input.type service.authority.isSome)
  match service.authority with
  | none => createScheduleRecord input (input.createdBy.getD "system") none none none
  | some gateway => do
    let principal ← requireVerifiedPrincipal caller
    check (rejectCallerActor input.raw principal)
    let tenantId ← check (resolveTenant input.tenantId principal)
    gateway.execute "schedules.create" (.of principal)
      { type := "schedule", tenantId
        attributes := creationAttributes input.type (input.delegationId <|> principal.delegationId) }
      { service := "jobs" }
      fun context _ => createScheduleRecord { input with tenantId := some tenantId }
        principal.principalId (some gateway.application) (some principal)
        (some context.authorization.decisionId)

/-! ## Disabling and retrying -/

/-- Disable a schedule that was read, under its version, and audit it. -/
def disableRead (tenantId scheduleId : String) (schedule : JobSchedule τ) (principalId : String) :
    Svc τ (Option (JobSchedule τ)) := do
  let updated : Option (JobSchedule τ) ←
    (ScheduleOp.updateSchedule tenantId scheduleId schedule.version { enabled := some false }).perform
  match updated with
  | none => pure none
  | some s => do
    let t ← now
    scheduleAudit "job.schedule.disabled" s principalId t []
    pure (some s)

/-- `disableSchedule`, and `disableScheduleLegacy` without an authority. -/
def disableSchedule (tenantId scheduleId : String) (caller : PrincipalInput) :
    Svc τ (Option (JobSchedule τ)) :=
  match service.authority with
  | none => do
    let schedule : Option (JobSchedule τ) ← (ScheduleOp.get tenantId scheduleId).perform
    match schedule with
    | none => pure none
    | some schedule => disableRead tenantId scheduleId schedule "system"
  | some gateway => do
    let principal ← requireVerifiedPrincipal caller
    let tenant ← check (resolveTenant (some tenantId) principal)
    let schedule : Option (JobSchedule τ) ← (ScheduleOp.get tenant scheduleId).perform
    match schedule with
    | none => pure none
    | some schedule =>
      if schedule.applicationId ≠ some gateway.application then pure none
      else
        gateway.execute "schedules.cancel" (.of principal)
          { type := "schedule", tenantId, id := some schedule.id
            attributes := [("jobType", schedule.type), ("createdBy", schedule.createdBy)] }
          { service := "jobs" }
          fun _ _ => disableRead tenantId scheduleId schedule principal.principalId

/-- The update that resets a job. -/
def resetUpdate : JobUpdate τ :=
  { status := some .pending, attemptCount := some 0, nextAttemptAt := some none
    lastError := some none }

/-- `resetJob`. -/
def resetJob (job : Job τ) (principalId : String) : Svc τ (Option (Job τ)) := do
  let t ← now
  let updated : Option (Job τ) ←
    (JobOp.updateJob job.tenantId job.id job.version resetUpdate).perform
  match updated with
  | none => pure none
  | some job => do
    jobAudit "job.retried" job.id job.tenantId principalId t true []
    pure (some job)

/-- `retry`. -/
def retry (tenantId jobId : String) (caller : PrincipalInput) : Svc τ (Option (Job τ)) := do
  let job : Option (Job τ) ← (JobOp.get tenantId jobId).perform
  match job with
  | none => pure none
  | some job =>
    match service.authority with
    | none => resetJob job "system"
    | some gateway => do
      let principal ← requireVerifiedPrincipal caller
      let tenant ← check (resolveTenant (some tenantId) principal)
      let owned : Option (Job τ) ← (JobOp.get tenant jobId).perform
      match owned with
      | none => pure none
      | some owned =>
        if owned.applicationId ≠ some gateway.application then pure none
        else
          gateway.execute "jobs.retry" (.of principal)
            { type := "job", tenantId, id := some owned.id, attributes := [("jobType", owned.type)] }
            { service := "jobs" }
            fun _ _ => resetJob owned principal.principalId

/-! ## Settlement -/

/-- `completeJob`. -/
def completeJob (job : Job τ) (principalId : String) (runId : Option String) : Svc τ Unit := do
  let completedAt ← now
  let _ ← (JobOp.updateJob job.tenantId job.id job.version
    { status := some .completed, completedAt := some (some completedAt) }).perform
  jobAudit "job.completed" job.id job.tenantId principalId completedAt true
    (match runId with | some r => [("runId", r)] | none => [])

/-- `recordExecutionFailure`: the attempt counts; the last one fails the job. -/
def recordExecutionFailure (job : Job τ) (principalId : String) (error : JsError) : Svc τ Unit :=
  let nextAttempt := job.attemptCount + 1
  if (nextAttempt : Int) ≥ job.maxAttempts then do
    let failedAt ← now
    let _ ← (JobOp.updateJob job.tenantId job.id job.version
      { status := some .failed, lastError := some (some error.message)
        attemptCount := some nextAttempt }).perform
    jobAudit "job.failed" job.id job.tenantId principalId failedAt false
      [("error", error.message), ("attemptCount", toString nextAttempt)]
  else do
    let t ← now
    let nextAttemptAt ← check (laterThan t (INITIAL_RETRY_DELAY_MS * 2 ^ job.attemptCount))
    let _ ← (JobOp.updateJob job.tenantId job.id job.version
      { status := some .retrying, nextAttemptAt := some (some nextAttemptAt)
        lastError := some (some error.message), attemptCount := some nextAttempt }).perform
    let timestamp ← now
    jobAudit "job.retrying" job.id job.tenantId principalId timestamp false
      [("error", error.message), ("attemptCount", toString nextAttempt)]

/-- `deny`. -/
def deny (job : Job τ) (reason : String) : Svc τ Unit := do
  let _ ← (JobOp.updateJob job.tenantId job.id job.version
    { status := some .failed, lastError := some (some reason) }).perform
  let t ← now
  jobAudit "job.denied" job.id job.tenantId
    ((job.principal.map DurablePrincipal.principalId).getD "anonymous") t false [("reason", reason)]

/-- The principal a job's audit names when it runs without authority. -/
def legacyPrincipalId (job : Job τ) : String :=
  (job.principal.map DurablePrincipal.principalId).getD "system"

/-! ## Execution -/

/-- Invoke the registered handler on a claimed job. -/
def invokeHandler (handler : JobHandler τ) (job : Job τ) (execution : Option (JobExecution τ)) :
    Svc τ Unit := do
  (HostOp.startJobHandler job execution).perform
  handler job execution

/-- `executeLegacyHandler`. -/
def executeLegacyHandler (job : Job τ) (handler : JobHandler τ) : Svc τ Bool :=
  Task.tryCatch
    (do
      invokeHandler handler job none
      completeJob job (legacyPrincipalId job) none
      pure true)
    fun error => do
      recordExecutionFailure job (legacyPrincipalId job) error
      pure false

/-- The `catch` of an authorized execution: denied, put back without counting the
attempt, or failed. -/
def settleError (claimed : Job τ) (tenantId jobId principalId : String) (error : JsError) :
    Svc τ Unit :=
  match error.code? with
  | some .denied | some .unauthenticated => deny claimed ("DENIED: " ++ error.message)
  | some .authorityUnavailable | some .authorizationTimeout => do
    let t ← now
    let nextAttemptAt ← check (laterThan t INITIAL_RETRY_DELAY_MS)
    let _ ← (JobOp.updateJob tenantId jobId claimed.version
      { status := some .retrying, nextAttemptAt := some (some nextAttemptAt)
        lastError := some (some (((error.code?.map ServiceFailureCode.text).getD "") ++ ": " ++
          error.message)) }).perform
    pure ()
  | _ => recordExecutionFailure claimed principalId error

/-- `executeJob` from the attested principal on: one authorized run of the handler. -/
def runAuthorized (gateway : ServiceGateway) (handler : JobHandler τ) (claimed : Job τ)
    (durable : DurablePrincipal) (tenantId jobId : String) : Svc τ Bool := do
  let runId := claimed.id ++ ":" ++ toString (claimed.attemptCount + 1)
  let principal ← mintVerifiedPrincipal (durable.claims runId) .job
  Task.tryCatch
    (do
      gateway.execute "jobs.execute" (.of principal)
        { type := "job", tenantId, id := some claimed.id, attributes := [("jobType", claimed.type)] }
        { service := "jobs", requestId := some runId }
        fun context _ => invokeHandler handler claimed (some { principal, context, runId })
      completeJob claimed principal.principalId (some runId)
      pure true)
    fun error => do
      settleError claimed tenantId jobId principal.principalId error
      pure false

/-- `executeJob` from a claimed job on. -/
def runClaimed (claimed : Job τ) (tenantId jobId : String) : Svc τ Bool :=
  match service.handlers claimed.type with
  | none => do
    let _ ← (JobOp.updateJob tenantId jobId claimed.version
      { status := some .failed
        lastError := some (some ("Handler not registered for type: " ++ claimed.type)) }).perform
    pure false
  | some handler =>
    match service.authority with
    | none => executeLegacyHandler claimed handler
    | some gateway =>
      if isSystemType claimed.type then executeLegacyHandler claimed handler
      else
        match claimed.principal.filter (fun p => p.tenantId == tenantId) with
        | none => do
          deny claimed
            "DENIED: anonymous job execution is not permitted; enqueue jobs through an authorized caller"
          pure false
        | some durable => do
          let attested ← (gateway.attest durable ["jobs.create", "schedules.create"]).attempt
          match attested with
          | .error error => do
            deny claimed ("DENIED: " ++ error.message)
            pure false
          | .ok _ => runAuthorized gateway handler claimed durable tenantId jobId

/-- `executeJob` from the decision to claim on. -/
def claimAndRun (job : Job τ) (tenantId jobId : String) : Svc τ Bool := do
  let t ← now
  let leaseExpiresAt ← check (laterThan t service.leaseDurationMs)
  let claimed : Option (Job τ) ←
    (JobOp.claim tenantId jobId job.version leaseExpiresAt).perform
  match claimed with
  | none => pure false
  | some claimed => service.runClaimed claimed tenantId jobId

/-- A running job whose lease has expired. -/
def isAbandoned (nowIso : τ) (job : Job τ) : Bool :=
  job.status == .running && job.leaseExpiresAt.any (fun t => t ≤ nowIso)

/-- The attempt a takeover counts, as its error says it. -/
def abandonedError (attemptCount : Nat) : String :=
  "lease expired before attempt " ++ toString attemptCount ++ " settled; it may have partly run"

/-- `executeJob` on an abandoned job: the abandoned attempt counts. The last one
fails the job, and there is nothing left to claim. -/
def countAbandoned (job : Job τ) (tenantId jobId : String) (nowIso : τ) : Svc τ (Option (Job τ)) := do
  let attemptCount := job.attemptCount + 1
  if (attemptCount : Int) ≥ job.maxAttempts then
    let failed : Option (Job τ) ← (JobOp.updateJob tenantId jobId job.version
      { status := some .failed, attemptCount := some attemptCount
        lastError := some (some (abandonedError attemptCount)) }).perform
    match failed with
    | some _ =>
      jobAudit "job.failed" jobId tenantId (legacyPrincipalId job) nowIso false
        [("error", abandonedError attemptCount), ("attemptCount", toString attemptCount)]
    | none => pure ()
    pure none
  else
    (JobOp.updateJob tenantId jobId job.version
      { attemptCount := some attemptCount
        lastError := some (some (abandonedError attemptCount)) }).perform

/-- `executeJob`. -/
def executeJob (tenantId jobId workerId : String) : Svc τ Bool := do
  let job : Option (Job τ) ← (JobOp.get tenantId jobId).perform
  match job with
  | none => pure false
  | some job => do
    let nowIso ← now
    if isAbandoned nowIso job then
      let counted ← countAbandoned job tenantId jobId nowIso
      match counted with
      | none => pure false
      | some counted => service.claimAndRun counted tenantId jobId
    else if job.status = .running ∧ job.leaseOwner ≠ some workerId then pure false
    else service.claimAndRun job tenantId jobId

/-! ## Due lists and recurring schedules -/

/-- `listDueJobs`. -/
def listDueJobs (tenantId : String) : Svc τ (List (Job τ)) := do
  let t ← now
  (JobOp.listDue tenantId t).perform

/-- The job `processRecurringSchedules` creates from a due schedule. -/
def scheduledJob (schedule : JobSchedule τ) (jobId : String) (now : τ) : Job τ where
  id := jobId
  tenantId := schedule.tenantId
  applicationId := keepPresent schedule.applicationId
  type := schedule.type
  payload := schedule.payload
  status := .pending
  runAt := now
  attemptCount := 0
  maxAttempts := DEFAULT_MAX_ATTEMPTS
  createdAt := now
  principal := schedule.principal
  version := 1

/-- One due schedule: create its job, then move it to its next run. -/
def processSchedule (tenantId : String) (t : τ) (schedule : JobSchedule τ) : Svc τ Unit := do
  let jobId ← randomUUID
  (JobOp.create (scheduledJob schedule jobId t)).perform
  let nextRunAt ← check (nextRunTime t schedule.interval)
  let updated : Option (JobSchedule τ) ←
    (ScheduleOp.updateSchedule tenantId schedule.id schedule.version
      { nextRunAt := some nextRunAt }).perform
  match updated with
  | some _ => do
    let id ← randomUUID
    (AuditOp.job {
      id, type := "job.created_from_schedule", jobId := some jobId, scheduleId := some schedule.id
      tenantId := schedule.tenantId
      principalId := (schedule.principal.map DurablePrincipal.principalId).getD "anonymous"
      timestamp := t, success := true }).perform
  | none => pure ()

/-- `processRecurringSchedules`; it answers with the number of schedules it worked
through. -/
def processRecurringSchedules (tenantId : String) : Svc τ Nat := do
  let t ← now
  let due : List (JobSchedule τ) ← (ScheduleOp.listDue tenantId t).perform
  Task.forEach (processSchedule tenantId t) due
  pure due.length

/-! ## Loops -/

/-- One round of `JobWorker.work`: list what is due and execute the first. The worker
does not await `executeJob`, so its rounds overlap; each is a process of its own. -/
def work (tenantId workerId : String) : Svc τ Unit := do
  let t ← now
  let due : List (Job τ) ← (JobOp.listDue tenantId t).perform
  match due with
  | [] => pure ()
  | job :: _ => do
    let _ ← service.executeJob tenantId job.id workerId
    pure ()

/-- One round of the managed loop of `appport.start`: recurring schedules, then every
job of one due list, in order. -/
def managedRound (tenantId workerId : String) : Svc τ Unit := do
  let _ : Nat ← processRecurringSchedules tenantId
  let due : List (Job τ) ← listDueJobs tenantId
  Task.forEach (fun job => do
    let _ ← service.executeJob job.tenantId job.id workerId
    pure ()) due

end JobService

end AppPort
