import AppPort.Authority.Enforcement
import AppPort.Configuration.Transfer
import AppPort.Runtime.Transaction

/-!
# The job protocol

What any interleaving of the job service can do to a job record, said once.

`JobChange` is the record's side: one call creates the record, merges one update into
it, or leaves it alone. `JobPhase` and `JobStep` are the caller's side: where an
`executeJob` stands (what it read, what it counted, what it claimed, whether the
handler was started and how it settled) and which calls it may make from there.
`jobProtocol_obeyed` (`Jobs/Conformance.lean`) connects the two to the code: every
entry point of the job service conforms. Results about jobs are then proved along
`JobStep`, with nothing left of the programs.
-/

namespace AppPort

open Effects Effects.Platform

variable {τ : Type} [Timestamp τ]

/-! ## The record's side -/

/-- The jobs a call inserts, if it goes through. -/
def AppOp.newJobs : AppOp τ → List (Job τ)
  | .jobs (.create job) => [job]
  | .commit operations => operations.filterMap fun
    | .job job => some job
    | _ => none
  | _ => []

/-- What one call can do to the record under `id`. -/
inductive JobChange (id : String) (op : AppOp τ) (w w' : World τ) : Prop where
  | same (hget : w'.jobs.get id = w.jobs.get id)
  | created (job : Job τ) (hnew : job ∈ op.newJobs) (hid : job.id = id)
      (habsent : w.jobs.get id = none) (hget : w'.jobs.get id = some job)
  | merged (job : Job τ) (u : JobUpdate τ)
      (hop : (∃ tenantId, op = .jobs (.updateJob tenantId id job.version u)) ∨
        ∃ tenantId lease, op = .jobs (.claim tenantId id job.version lease) ∧
          u = claimUpdate w.clock lease)
      (hold : w.jobs.get id = some job) (hget : w'.jobs.get id = some (u.written job))

omit [Timestamp τ] in
/-- A queued operation creates a job under an absent id, or leaves the jobs alone. -/
theorem TransactionOperation.apply_jobs {op : TransactionOperation τ} {w w' : World τ}
    (h : op.apply w = some w') :
    (∃ job, op = .job job ∧ w.jobs.get job.id = none ∧ w'.jobs = w.jobs.put job.id job) ∨
    w'.jobs = w.jobs := by
  cases op <;> simp only [TransactionOperation.apply, Option.map_eq_some_iff] at h
  case jobAudit | webhookAudit =>
    cases h
    exact .inr rfl
  case job job =>
    obtain ⟨t, ht, rfl⟩ := h
    obtain ⟨habsent, rfl⟩ := Table.insertAbsent_eq_some ht
    exact .inl ⟨job, rfl, habsent, rfl⟩
  all_goals
    obtain ⟨t, -, rfl⟩ := h
    exact .inr rfl

omit [Timestamp τ] in
/-- A commit creates records under absent ids, and changes none. -/
theorem applyAll_job {id : String} {ops : List (TransactionOperation τ)} {w w' : World τ}
    (h : applyAll w ops = some w') : JobChange id (.commit ops) w w' := by
  -- one induction: a record present stays, an absent one is absent or one of the new
  have key : (∀ job, w.jobs.get id = some job → w'.jobs.get id = some job) ∧
      (w.jobs.get id = none → w'.jobs.get id = none ∨
        ∃ job, .job job ∈ ops ∧ job.id = id ∧ w'.jobs.get id = some job) := by
    induction ops generalizing w with
    | nil =>
      obtain rfl := Option.some.inj h
      exact ⟨fun _ hj => hj, fun hn => .inl hn⟩
    | cons op rest ih =>
      simp only [applyAll] at h
      cases hop : op.apply w with
      | none =>
        rw [hop] at h
        cases h
      | some w₁ =>
        rw [hop] at h
        obtain ⟨hstay, hfresh⟩ := ih h
        rcases op.apply_jobs hop with ⟨job, rfl, habsent, hput⟩ | hsame
        · by_cases hid : id = job.id
          · subst hid
            have hget : w₁.jobs.get job.id = some job := by rw [hput, Table.get_put_same]
            refine ⟨fun j hj => ?_, fun _ => .inr ⟨job, List.mem_cons_self, rfl, hstay job hget⟩⟩
            rw [habsent] at hj
            cases hj
          · have hget : w₁.jobs.get id = w.jobs.get id := by
              rw [hput, Table.get_put_other _ _ hid]
            refine ⟨fun j hj => hstay j (hget.trans hj), fun hn => ?_⟩
            rcases hfresh (hget.trans hn) with hnone | ⟨j, hj, hjid, hjget⟩
            · exact .inl hnone
            · exact .inr ⟨j, List.mem_cons_of_mem _ hj, hjid, hjget⟩
        · have hget : w₁.jobs.get id = w.jobs.get id := by rw [hsame]
          refine ⟨fun j hj => hstay j (hget.trans hj), fun hn => ?_⟩
          rcases hfresh (hget.trans hn) with hnone | ⟨j, hj, hjid, hjget⟩
          · exact .inl hnone
          · exact .inr ⟨j, List.mem_cons_of_mem _ hj, hjid, hjget⟩
  cases hget : w.jobs.get id with
  | some job => exact .same ((key.1 job hget).trans hget.symm)
  | none =>
    rcases key.2 hget with hnone | ⟨job, hmem, hid, hjob⟩
    · exact .same (hnone.trans hget.symm)
    · exact .created job (List.mem_filterMap.mpr ⟨_, hmem, rfl⟩) hid hget hjob

/-- **What one call can do to a job record.** -/
theorem exec_job {op : AppOp τ} {choice : Choice} {w w' : World τ}
    {res : Except JsError (op.Out τ)} (h : op.exec choice w = some (res, w')) (id : String) :
    JobChange id op w w' := by
  have hstored : ∀ {β : Type} {r : Except JsError β × World τ} {res : Except JsError β},
      JobChange id op w r.2 → stored choice w r = some (res, w') → JobChange id op w w' := by
    intro β r res hr hs
    rcases stored_cases hs with ⟨-, rfl⟩ | ⟨_, -, rfl | rfl⟩
    · exact hr
    · exact hr
    · exact .same rfl
  cases op with
  | jobs o =>
    simp only [AppOp.exec] at h
    rcases hexec : o.exec w.clock w.jobs with ⟨r, jobs'⟩
    rw [hexec] at h
    refine hstored ?_ h
    rcases o.exec_write hexec with ⟨job, rfl, habsent, hput⟩ | ⟨id', u, job, hop, hget, hput⟩ | hsame
    · by_cases hid : id = job.id
      · subst hid
        exact .created job (List.mem_singleton_self job) rfl habsent
          (by rw [hput, Table.get_put_same])
      · exact .same (by rw [hput, Table.get_put_other _ _ hid])
    · by_cases hid : id = id'
      · subst hid
        refine .merged job u ?_ hget (by rw [hput, Table.get_put_same])
        rcases hop with ⟨tenantId, rfl⟩ | ⟨tenantId, lease, rfl, rfl⟩
        · exact .inl ⟨tenantId, rfl⟩
        · exact .inr ⟨tenantId, lease, rfl, rfl⟩
      · exact .same (by rw [hput, Table.get_put_other _ _ hid])
    · exact .same (by rw [hsame])
  | schedules o => exact hstored (.same rfl) h
  | webhooks o => exact hstored (.same rfl) h
  | notifications o => exact hstored (.same rfl) h
  | apiKeys o => exact hstored (.same rfl) h
  | configuration o => exact hstored (.same rfl) h
  | secretMetadata o => exact hstored (.same rfl) h
  | audit o => cases o <;> exact hstored (.same rfl) h
  | commit ops =>
    refine hstored ?_ h
    split
    · next w₁ hall => exact applyAll_job hall
    · exact .same rfl
  | authority o => exact .same (by rw [(o.exec_stores h).jobs])
  | host o => exact .same (by rw [o.exec_world h])

/-- A read that finds a record finds the stored one, and writes nothing. -/
theorem exec_get {tenantId id : String} {choice : Choice} {w w' : World τ} {job : Job τ}
    (h : (AppOp.jobs (.get tenantId id)).exec choice w = some (.ok (some job), w')) :
    w.jobs.get id = some job ∧ w'.jobs = w.jobs := by
  simp only [AppOp.exec, JobOp.exec] at h
  rcases stored_cases h with ⟨hres, rfl⟩ | ⟨message, hres, -⟩
  · have hfound := Except.ok.inj hres
    exact ⟨(Option.filter_eq_some_iff.mp hfound.symm).1, rfl⟩
  · cases hres

omit [Timestamp τ] in
/-- A conditional write whose answer is handed on merged into the record it expected. -/
theorem ofTenant_updateIfVersion {jobs : Table String (Job τ)} {tenantId id : String} {v : Nat}
    {u : JobUpdate τ} {job' : Job τ}
    (h : ofTenant Job.tenantId tenantId (jobs.updateIfVersion id v u.apply).1 = some job') :
    ∃ job, jobs.get id = some job ∧ job.version = v ∧ job' = u.written job ∧
      (jobs.updateIfVersion id v u.apply).2.get id = some job' := by
  rcases hu : jobs.updateIfVersion id v u.apply with ⟨r, jobs'⟩
  rw [hu] at h
  have hwritten := (Option.filter_eq_some_iff.mp h).1
  rcases Table.updateIfVersion_eq hu with ⟨job, hget, hv, hr, ht⟩ | ⟨hr, -⟩
  · rw [hr] at hwritten
    obtain rfl := Option.some.inj hwritten
    refine ⟨job, hget, hv, ?_, ?_⟩
    · simp only [withVersion_job, JobUpdate.written, ← hv, version_job]
    · simp only [ht, Table.get_put_same]
  · rw [hr] at hwritten
    cases hwritten

theorem exec_updateJob {tenantId id : String} {v : Nat} {u : JobUpdate τ} {choice : Choice}
    {w w' : World τ} {job' : Job τ}
    (h : (AppOp.jobs (.updateJob tenantId id v u)).exec choice w = some (.ok (some job'), w')) :
    ∃ job, w.jobs.get id = some job ∧ job.version = v ∧ job' = u.written job ∧
      w'.jobs.get id = some job' := by
  simp only [AppOp.exec, JobOp.exec] at h
  rcases stored_cases h with ⟨hres, rfl⟩ | ⟨message, hres, -⟩
  · exact ofTenant_updateIfVersion (Except.ok.inj hres).symm
  · cases hres

theorem exec_claim {tenantId id : String} {v : Nat} {lease : τ} {choice : Choice} {w w' : World τ}
    {job' : Job τ}
    (h : (AppOp.jobs (.claim tenantId id v lease)).exec choice w = some (.ok (some job'), w')) :
    ∃ job, w.jobs.get id = some job ∧ job.version = v ∧
      job' = (claimUpdate w.clock lease).written job ∧ w'.jobs.get id = some job' := by
  simp only [AppOp.exec, JobOp.exec] at h
  rcases stored_cases h with ⟨hres, rfl⟩ | ⟨message, hres, -⟩
  · exact ofTenant_updateIfVersion (Except.ok.inj hres).symm
  · cases hres

/-- A record stays stored, as the same job, and along its versions. -/
structure RecordFence (w w' : World τ) (id : String) (job : Job τ) : Prop where
  intro ::
  moved : ∃ job', w'.jobs.get id = some job' ∧ SameJob job' job ∧ job.version ≤ job'.version ∧
    (job'.version = job.version → job' = job)

/-- Every call moves the jobs along the fence. -/
theorem exec_fence_jobs {op : AppOp τ} {choice : Choice} {w w' : World τ}
    {res : Except JsError (op.Out τ)} (h : op.exec choice w = some (res, w')) (id : String)
    (job : Job τ) (hget : w.jobs.get id = some job) : RecordFence w w' id job := by
  rcases exec_job h id with hsame | ⟨_, -, -, habsent, -⟩ | ⟨job', u, -, hold, hnew⟩
  · exact ⟨job, hsame.trans hget, SameJob.refl job, Nat.le_refl _, fun _ => rfl⟩
  · rw [hget] at habsent
    cases habsent
  · rw [hget] at hold
    obtain rfl := Option.some.inj hold
    refine ⟨_, hnew, u.written_same job, Nat.le_succ _, fun hv => ?_⟩
    exact absurd hv (Nat.succ_ne_self _)

/-- What one call can do to the schedule under `id`. -/
inductive ScheduleChange (id : String) (op : AppOp τ) (w w' : World τ) : Prop where
  | same (hget : w'.schedules.get id = w.schedules.get id)
  | created (schedule : JobSchedule τ) (hop : op = .schedules (.create schedule))
      (hid : schedule.id = id) (habsent : w.schedules.get id = none)
      (hget : w'.schedules.get id = some schedule)
  | merged (schedule : JobSchedule τ) (tenantId : String) (u : ScheduleUpdate τ)
      (hop : op = .schedules (.updateSchedule tenantId id schedule.version u))
      (hold : w.schedules.get id = some schedule)
      (hget : w'.schedules.get id = some (u.written schedule))

omit [Timestamp τ] in
theorem TransactionOperation.apply_schedules {op : TransactionOperation τ} {w w' : World τ}
    (h : op.apply w = some w') : w'.schedules = w.schedules := by
  cases op <;> simp only [TransactionOperation.apply, Option.map_eq_some_iff] at h
  case jobAudit | webhookAudit =>
    cases h
    rfl
  all_goals
    obtain ⟨t, -, rfl⟩ := h
    rfl

/-- **What one call can do to a schedule.** -/
theorem exec_schedule {op : AppOp τ} {choice : Choice} {w w' : World τ}
    {res : Except JsError (op.Out τ)} (h : op.exec choice w = some (res, w')) (id : String) :
    ScheduleChange id op w w' := by
  have hstored : ∀ {β : Type} {r : Except JsError β × World τ} {res : Except JsError β},
      ScheduleChange id op w r.2 → stored choice w r = some (res, w') →
      ScheduleChange id op w w' := by
    intro β r res hr hs
    rcases stored_cases hs with ⟨-, rfl⟩ | ⟨_, -, rfl | rfl⟩
    · exact hr
    · exact hr
    · exact .same rfl
  cases op with
  | schedules o =>
    simp only [AppOp.exec] at h
    rcases hexec : o.exec w.schedules with ⟨r, schedules'⟩
    rw [hexec] at h
    refine hstored ?_ h
    rcases o.exec_write hexec with
      ⟨s, rfl, habsent, hput⟩ | ⟨id', tenantId, u, s, rfl, hget, hput⟩ | hsame
    · by_cases hid : id = s.id
      · subst hid
        exact .created s rfl rfl habsent (by rw [hput, Table.get_put_same])
      · exact .same (by rw [hput, Table.get_put_other _ _ hid])
    · by_cases hid : id = id'
      · subst hid
        exact .merged s tenantId u rfl hget (by rw [hput, Table.get_put_same])
      · exact .same (by rw [hput, Table.get_put_other _ _ hid])
    · exact .same (by rw [hsame])
  | jobs o => exact hstored (.same rfl) h
  | webhooks o => exact hstored (.same rfl) h
  | notifications o => exact hstored (.same rfl) h
  | apiKeys o => exact hstored (.same rfl) h
  | configuration o => exact hstored (.same rfl) h
  | secretMetadata o => exact hstored (.same rfl) h
  | audit o => cases o <;> exact hstored (.same rfl) h
  | commit ops =>
    refine hstored ?_ h
    split
    · next w₁ hall =>
      refine .same ?_
      rw [applyAll_rel (R := fun w w' => w'.schedules = w.schedules) (fun _ => rfl)
        (fun h₁ h₂ => h₂.trans h₁) (fun op _ w w' => op.apply_schedules) hall]
    · exact .same rfl
  | authority o => exact .same (by rw [(o.exec_stores h).schedules])
  | host o => exact .same (by rw [o.exec_world h])

/-! ## The platform

Any number of processes of any number of hosts, each with its own configuration and
handlers, share one store. Besides their calls only the clock moves the jobs' world;
everything the job service does not own may change at any time. -/

/-- A job service whose handlers are the host's. -/
structure JobHost where
  authority : Option ServiceGateway
  maxRetryAttempts : Int := DEFAULT_MAX_ATTEMPTS
  leaseDurationMs : Nat := LEASE_DURATION_MS
  allowedTypes : List String := []
  /-- The types a handler is registered for. -/
  registered : List String := []

/-- The service of a host: its handlers are awaited, and do nothing else here. -/
def JobHost.service (host : JobHost) : JobService τ where
  authority := host.authority
  maxRetryAttempts := host.maxRetryAttempts
  leaseDurationMs := host.leaseDurationMs
  allowedTypes := host.allowedTypes
  handlers := fun type =>
    if type ∈ host.registered then some fun job _ => (HostOp.awaitJobHandler job).perform else none

/-- The schedule service of a host. -/
def JobHost.schedules (host : JobHost) : ScheduleService τ where
  jobs := host.service
  authority := host.authority

/-- The entry points of the job service, and of what works on its store. -/
inductive JobEntry (τ : Type) where
  | executeJob (tenantId jobId workerId : String)
  | work (tenantId workerId : String)
  | managedRound (tenantId workerId : String)
  | retry (tenantId jobId : String) (caller : PrincipalInput)
  | enqueue (input : CreateJobInput τ) (caller : PrincipalInput)
  | schedule (input : CreateJobInput τ) (caller : PrincipalInput)
  | scheduleRecurring (input : ScheduleRecurringInput) (caller : PrincipalInput)
  | systemEnqueue (input : CreateJobInput τ)
  | disableSchedule (tenantId scheduleId : String) (caller : PrincipalInput)
  | processRecurringSchedules (tenantId : String)
  | createSchedule (input : ScheduleRecurringInput) (caller : PrincipalInput)
  | importSchedules (document : List ConfigurationExportSchedule) (dryRun overwrite : Bool)
      (caller : PrincipalInput)
  /-- `services.gateway.authorize`: where the contexts of a transaction come from. -/
  | authorize (capability : String) (caller : PrincipalInput) (resource : ServiceResource)
      (requestId : String)
  | transaction (calls : List (TransactionCall τ × Bool))

structure JobCall (τ : Type) where
  host : JobHost
  entry : JobEntry τ

/-- The entry point works through jobs that are due. -/
def JobEntry.executes : JobEntry τ → Bool
  | .executeJob .. | .work .. | .managedRound .. => true
  | _ => false

/-- Run a task for its effects. -/
def discard {α : Type} (t : Svc τ α) : Svc τ Unit := t.bind fun _ => pure ()

def jobBody (call : JobCall τ) : Svc τ Unit :=
  match call.entry with
  | .executeJob tenantId jobId workerId => discard (call.host.service.executeJob tenantId jobId workerId)
  | .work tenantId workerId => call.host.service.work tenantId workerId
  | .managedRound tenantId workerId => call.host.service.managedRound tenantId workerId
  | .retry tenantId jobId caller => discard (call.host.service.retry tenantId jobId caller)
  | .enqueue input caller => discard (call.host.service.enqueue input caller)
  | .schedule input caller => discard (call.host.service.schedule input caller)
  | .scheduleRecurring input caller => discard (call.host.service.scheduleRecurring input caller)
  | .systemEnqueue input => discard (call.host.service.systemEnqueue input)
  | .disableSchedule tenantId scheduleId caller =>
    discard (call.host.service.disableSchedule tenantId scheduleId caller)
  | .processRecurringSchedules tenantId => discard (JobService.processRecurringSchedules tenantId)
  | .createSchedule input caller => discard (call.host.schedules.create input caller)
  | .importSchedules document dryRun overwrite caller =>
    call.host.schedules.importSchedules document dryRun overwrite caller
  | .authorize capability caller resource requestId =>
    match call.host.authority with
    | some gateway => discard (gateway.authorize capability caller resource requestId)
    | none => pure ()
  | .transaction calls => transaction call.host.authority calls

/-- What happens to the world besides the calls. -/
inductive JobEnv (τ : Type) where
  /-- Time passes. -/
  | tick (t : τ)
  /-- Anything that is not the job service's changes. -/
  | others (f : World τ → World τ)

def jobEnv (move : JobEnv τ) (w : World τ) : Option (World τ) :=
  match move with
  | .tick t => if w.clock ≤ t then some { w with clock := t } else none
  | .others f => some { f w with clock := w.clock, jobs := w.jobs, schedules := w.schedules }

/-- The job service, run by any number of hosts over one store. -/
abbrev jobPlatform (τ : Type) [Timestamp τ] : Platform := appPlatform (jobBody (τ := τ)) jobEnv

/-! ## The caller's side -/

/-- Where a process stands with the job it is working on. -/
inductive JobPhase (τ : Type) where
  | idle
  /-- An execution found this record. -/
  | read (id : String) (job : Job τ)
  /-- It judged the record at this time. -/
  | judged (id : String) (job : Job τ) (nowIso : τ)
  /-- It counted the abandoned attempt; this is the record since. -/
  | counted (id : String) (job : Job τ)
  /-- It claimed the record; this is the record since. -/
  | claimed (id : String) (job : Job τ)
  /-- The handler is running. -/
  | started (id : String) (job : Job τ)
  /-- The handler settled; `unavailable` when with an error that is taken for the
  authority's being unavailable. -/
  | answered (id : String) (job : Job τ) (unavailable : Bool)
  /-- `retry` found this record. -/
  | owned (id : String) (job : Job τ)

/-- Calls that neither write job records nor concern handlers. -/
def AppOp.isQuiet : AppOp τ → Bool
  | .jobs (.create _) | .jobs (.claim ..) | .jobs (.updateJob ..) | .commit _ => false
  | .host (.startJobHandler ..) | .host (.awaitJobHandler _) => false
  | _ => true

/-- The error codes `executeJob` takes for an authority that could not decide. -/
def ServiceFailureCode.isUnavailable : ServiceFailureCode → Bool
  | .authorityUnavailable | .authorizationTimeout => true
  | _ => false

/-- A run of the job goes through the authority. -/
def JobHost.authorizes (host : JobHost) (job : Job τ) : Bool :=
  host.authority.isSome && !isSystemType job.type

/-- The handler settled with an error that is taken for the authority's. -/
def looksUnavailable (host : JobHost) (job : Job τ) : Except JsError Unit → Bool
  | .error e => host.authorizes job && e.code?.any ServiceFailureCode.isUnavailable
  | .ok _ => false

/-- A record as every path creates it. -/
structure Fresh (job : Job τ) : Prop where
  status : job.status = .pending ∨ job.status = .scheduled
  attemptCount : job.attemptCount = 0
  leaseOwner : job.leaseOwner = none

/-- What settles a claimed job. Only the last is uncounted. -/
inductive Settles (job : Job τ) (u : JobUpdate τ) : Prop where
  | completed (hstatus : u.status = some .completed) (hcount : u.attemptCount = none)
  | failed (hstatus : u.status = some .failed)
      (hcount : u.attemptCount = none ∨ u.attemptCount = some (job.attemptCount + 1))
  | retried (hstatus : u.status = some .retrying) (hcount : u.attemptCount = some (job.attemptCount + 1))
      (hmore : ((job.attemptCount + 1 : Nat) : Int) < job.maxAttempts)
  | putBack (hstatus : u.status = some .retrying) (hcount : u.attemptCount = none)

/-- **The protocol of one process.** Which answered calls a process may make from a
phase, and where they lead. -/
inductive JobStep : JobPhase τ → (jobPlatform τ).Step → JobPhase τ → Prop where
  | quiet {ph : JobPhase τ} {step : (jobPlatform τ).Step} (hop : step.op.isQuiet = true) :
    JobStep ph step ph
  | create {ph : JobPhase τ} {call : JobCall τ} {op : AppOp τ} {res : Except JsError (op.Out τ)}
    {before after : World τ} (hop : (∃ job, op = .jobs (.create job)) ∨ ∃ ops, op = .commit ops)
    (hfresh : ∀ job ∈ op.newJobs, Fresh job) :
    JobStep ph ⟨call, op, res, before, after⟩ ph
  /-- A new execution may begin wherever the last one was left. -/
  | fetch {ph : JobPhase τ} {call : JobCall τ} {tenantId id : String} {job : Job τ}
    {before after : World τ} (hcall : call.entry.executes = true) :
    JobStep ph ⟨call, .jobs (.get tenantId id), .ok (some job), before, after⟩ (.read id job)
  | judge {call : JobCall τ} {id : String} {job : Job τ} {before after : World τ} {t : τ}
    (hnow : t = before.clock) :
    JobStep (.read id job) ⟨call, .authority .now, .ok t, before, after⟩ (.judged id job t)
  /-- The abandoned attempt was the last. -/
  | exhaust {call : JobCall τ} {tenantId id : String} {job : Job τ} {t : τ} {u : JobUpdate τ}
    {res : Except JsError (Option (Job τ))} {before after : World τ}
    (habandoned : JobService.isAbandoned t job = true)
    (hstatus : u.status = some .failed) (hcount : u.attemptCount = some (job.attemptCount + 1)) :
    JobStep (.judged id job t)
      ⟨call, .jobs (.updateJob tenantId id job.version u), res, before, after⟩ .idle
  | count {call : JobCall τ} {tenantId id : String} {job : Job τ} {t : τ} {u : JobUpdate τ}
    {res : Except JsError (Option (Job τ))} {before after : World τ} {ph : JobPhase τ}
    (habandoned : JobService.isAbandoned t job = true)
    (hmore : ((job.attemptCount + 1 : Nat) : Int) < job.maxAttempts)
    (hstatus : u.status = none) (hcount : u.attemptCount = some (job.attemptCount + 1))
    (hlease : u.leaseExpiresAt = none)
    (hph : ph = match res with | .ok (some job') => .counted id job' | _ => .idle) :
    JobStep (.judged id job t)
      ⟨call, .jobs (.updateJob tenantId id job.version u), res, before, after⟩ ph
  | claim {call : JobCall τ} {tenantId id : String} {job : Job τ} {lease : τ}
    {res : Except JsError (Option (Job τ))} {before after : World τ} {ph ph' : JobPhase τ}
    (hfrom : ph = .counted id job ∨ ∃ t, ph = .judged id job t ∧
      JobService.isAbandoned t job = false ∧ (job.status = .running → job.leaseOwner ≠ none))
    (hto : ph' = match res with | .ok (some job') => .claimed id job' | _ => .idle) :
    JobStep ph ⟨call, .jobs (.claim tenantId id job.version lease), res, before, after⟩ ph'
  /-- The run ends before its handler was started. -/
  | giveUp {call : JobCall τ} {tenantId id key : String} {job : Job τ} {u : JobUpdate τ}
    {res : Except JsError (Option (Job τ))} {before after : World τ}
    (hkey : key = id ∨ key = job.id) (hu : Settles job u) (hstatus : u.status ≠ some .completed) :
    JobStep (.claimed id job)
      ⟨call, .jobs (.updateJob tenantId key job.version u), res, before, after⟩ .idle
  | start {call : JobCall τ} {id : String} {job : Job τ} {execution : Option (JobExecution τ)}
    {res : Except JsError Unit} {before after : World τ}
    (hrun : ∀ e ∈ execution, e.runId = job.id ++ ":" ++ toString (job.attemptCount + 1)) :
    JobStep (.claimed id job)
      ⟨call, .host (.startJobHandler job execution), res, before, after⟩ (.started id job)
  | answer {call : JobCall τ} {id : String} {job : Job τ} {res : Except JsError Unit}
    {before after : World τ} :
    JobStep (.started id job) ⟨call, .host (.awaitJobHandler job), res, before, after⟩
      (.answered id job (looksUnavailable call.host job res))
  /-- The run settles what its handler did. -/
  | settle {call : JobCall τ} {tenantId id key : String} {job : Job τ} {unavailable : Bool}
    {u : JobUpdate τ} {res : Except JsError (Option (Job τ))} {before after : World τ}
    (hkey : key = id ∨ key = job.id) (hu : Settles job u)
    (huncounted : u.status = some .retrying → u.attemptCount = none → unavailable = true) :
    JobStep (.answered id job unavailable)
      ⟨call, .jobs (.updateJob tenantId key job.version u), res, before, after⟩
      (.answered id job unavailable)
  | own {ph : JobPhase τ} {call : JobCall τ} {tenantId id : String} {job : Job τ}
    {before after : World τ} (hcall : call.entry.executes = false) :
    JobStep ph ⟨call, .jobs (.get tenantId id), .ok (some job), before, after⟩ (.owned id job)
  | reset {call : JobCall τ} {tenantId id key : String} {job : Job τ}
    {res : Except JsError (Option (Job τ))} {before after : World τ}
    (hkey : key = id ∨ key = job.id) :
    JobStep (.owned id job)
      ⟨call, .jobs (.updateJob tenantId key job.version JobService.resetUpdate), res, before, after⟩ .idle

/-- The protocol as a discipline of the platform. -/
abbrev jobProtocol (τ : Type) [Timestamp τ] : Discipline (jobPlatform τ) where
  Phase := JobPhase τ
  start _ := .idle
  next := JobStep
  final _ _ _ := True

end AppPort
