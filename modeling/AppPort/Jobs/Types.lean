import AppPort.Jobs.Attempts

/-!
# Where job types come from

Types that start with `appport.` are the internal queue's, and a handler of such a type
runs without a principal. `enqueue` and `scheduleRecurring` refuse them, and refuse what
the application does not declare; everything else that creates records copies a type
from where it was already checked, with one exception: `queueJob` in a transaction
checks neither.

The phase of a process is the list of due schedules it has read, the only values a type
is copied from.
-/

namespace AppPort

open Effects Effects.Platform

variable {τ : Type} [Timestamp τ]

/-- A type the application may use: not reserved, and declared where any are. -/
def JobHost.permits (host : JobHost) (type : String) : Bool :=
  !isSystemType type && (host.allowedTypes.isEmpty || host.allowedTypes.contains type)

omit [Timestamp τ] in
/-- What passes both checks is permitted. -/
theorem JobHost.permits_of_checks {host : JobHost} {type : String} (authorityMode : Bool)
    (happlication : assertApplicationJobType type = .ok ())
    (hallowed : (host.service (τ := τ)).assertAllowedType type authorityMode = .ok ()) :
    host.permits type = true := by
  have hsystem : isSystemType type = false := by
    unfold assertApplicationJobType at happlication
    split at happlication
    · cases happlication
    · next h => exact Bool.eq_false_iff.mpr h
  have hdeclared : host.allowedTypes = [] ∨ type ∈ host.allowedTypes := by
    unfold JobService.assertAllowedType at hallowed
    split at hallowed
    · next h => exact h
    · cases hallowed
  simp only [JobHost.permits, hsystem, Bool.not_false, Bool.true_and, Bool.or_eq_true,
    List.isEmpty_iff, List.contains_iff_mem]
  exact hdeclared

/-! ## Origins -/

/-- The entry points that create the jobs of due schedules. -/
def JobEntry.processesSchedules : JobEntry τ → Bool
  | .processRecurringSchedules _ | .managedRound .. => true
  | _ => false

/-- The step inserted the record of which `job` is a state. -/
def Creates (job : Job τ) (step : (jobPlatform τ).Step) : Prop :=
  ∃ new ∈ step.op.newJobs, SameJob job new ∧ step.after.jobs.get job.id = some new

/-- The step inserted the record of which `schedule` is a state. -/
def CreatesSchedule (schedule : JobSchedule τ) (step : (jobPlatform τ).Step) : Prop :=
  ∃ new, step.op = .schedules (.create new) ∧ SameSchedule schedule new ∧
    step.after.schedules.get schedule.id = some new

/-- The schedule was created by a host that may use its type. -/
def Declared (past : (jobPlatform τ).History) (schedule : JobSchedule τ) : Prop :=
  ∃ pid step, .ran pid step ∈ past ∧ CreatesSchedule schedule step ∧
    step.call.host.permits schedule.type = true

/-- The job was created by the internal system queue, from the input it was given. -/
def SystemQueued (past : (jobPlatform τ).History) (job : Job τ) : Prop :=
  isSystemType job.type = true ∧ ∃ pid step input, .ran pid step ∈ past ∧ Creates job step ∧
    step.call.entry = .systemEnqueue input ∧ job.type = input.type ∧ job.payload = input.payload

/-- The job was created by a host that may use its type, or from a schedule that was. -/
def ApplicationQueued (past : (jobPlatform τ).History) (job : Job τ) : Prop :=
  ∃ pid step, .ran pid step ∈ past ∧ Creates job step ∧
    (step.call.host.permits job.type = true ∨
      step.call.entry.processesSchedules = true ∧
        ∃ schedule, Declared past schedule ∧ job.type = schedule.type)

/-- Where a job came from. -/
def Origin (past : (jobPlatform τ).History) (job : Job τ) : Prop :=
  SystemQueued past job ∨ ApplicationQueued past job

/-- A permitted type is not a system type. -/
theorem JobHost.permits_application {host : JobHost} {type : String}
    (h : host.permits type = true) : isSystemType type = false := by
  simp only [JobHost.permits, Bool.and_eq_true, Bool.not_eq_true'] at h
  exact h.1

theorem Declared.grow {past past' : (jobPlatform τ).History} {schedule : JobSchedule τ}
    (h : Declared past schedule) (hsub : past ⊆ past') : Declared past' schedule := by
  obtain ⟨pid, step, hmem, hdeclares⟩ := h
  exact ⟨pid, step, hsub hmem, hdeclares⟩

theorem Declared.same {past : (jobPlatform τ).History} {schedule schedule' : JobSchedule τ}
    (h : Declared past schedule) (hsame : SameSchedule schedule' schedule) :
    Declared past schedule' := by
  obtain ⟨pid, step, hmem, ⟨new, hop, hnew, hget⟩, hpermits⟩ := h
  refine ⟨pid, step, hmem, ⟨new, hop, hsame.trans hnew, ?_⟩, ?_⟩
  · rw [hsame.id]
    exact hget
  · rw [hsame.type]
    exact hpermits

theorem Origin.grow {past past' : (jobPlatform τ).History} {job : Job τ}
    (h : Origin past job) (hsub : past ⊆ past') : Origin past' job := by
  rcases h with ⟨hsystem, pid, step, input, hmem, h⟩ | ⟨pid, step, hmem, hcreates, h⟩
  · exact .inl ⟨hsystem, pid, step, input, hsub hmem, h⟩
  · refine .inr ⟨pid, step, hsub hmem, hcreates, h.imp id ?_⟩
    rintro ⟨hentry, schedule, hdeclared, htype⟩
    exact ⟨hentry, schedule, hdeclared.grow hsub, htype⟩

theorem Creates.same {job job' : Job τ} {step : (jobPlatform τ).Step} (h : Creates job step)
    (hsame : SameJob job' job) : Creates job' step := by
  obtain ⟨new, hmem, hnew, hget⟩ := h
  refine ⟨new, hmem, hsame.trans hnew, ?_⟩
  rw [hsame.id]
  exact hget

theorem Origin.same {past : (jobPlatform τ).History} {job job' : Job τ}
    (h : Origin past job) (hsame : SameJob job' job) : Origin past job' := by
  rcases h with ⟨hsystem, pid, step, input, hmem, hcreates, h⟩ | ⟨pid, step, hmem, hcreates, h⟩
  · refine .inl ⟨?_, pid, step, input, hmem, hcreates.same hsame, ?_⟩
    · rw [hsame.type]
      exact hsystem
    · rw [hsame.type, hsame.payload]
      exact h
  · refine .inr ⟨pid, step, hmem, hcreates.same hsame, ?_⟩
    rw [hsame.type]
    exact h

theorem ApplicationQueued.application {past : (jobPlatform τ).History} {job : Job τ}
    (h : ApplicationQueued past job) : isSystemType job.type = false := by
  obtain ⟨pid, step, -, -, hpermits | ⟨-, schedule, ⟨_, _, -, -, hpermits⟩, htype⟩⟩ := h
  · exact JobHost.permits_application hpermits
  · rw [htype]
    exact JobHost.permits_application hpermits

/-- A job of a system type came from the system queue. -/
theorem Origin.system {past : (jobPlatform τ).History} {job : Job τ} (h : Origin past job)
    (hsystem : isSystemType job.type = true) : SystemQueued past job := by
  rcases h with h | h
  · exact h
  · rw [h.application] at hsystem
    cases hsystem

/-! ## The discipline of creation -/

/-- What a process may create, given the due schedules it has read. -/
inductive MayCreate (call : JobCall τ) (due : List (JobSchedule τ)) (job : Job τ) : Prop where
  | system (input : CreateJobInput τ) (hentry : call.entry = .systemEnqueue input)
      (hsystem : isSystemType job.type = true) (htype : job.type = input.type)
      (hpayload : job.payload = input.payload)
  | permitted (h : call.host.permits job.type = true)
  | scheduled (schedule : JobSchedule τ) (hentry : call.entry.processesSchedules = true)
      (hmem : schedule ∈ due) (htype : job.type = schedule.type)
  /-- Whatever type the context of a `queueJob` was issued for. -/
  | queued (calls : List (TransactionCall τ × Bool)) (input : QueueJobInput τ)
      (context : ServiceExecutionContext τ) (hentry : call.entry = .transaction calls)
      (hmem : .queueJob input context ∈ calls.map Prod.fst)
      (hcontext : context.resource.attribute "jobType" = some input.type)
      (htype : job.type = input.type)

inductive TypeStep : List (JobSchedule τ) → (jobPlatform τ).Step → List (JobSchedule τ) → Prop where
  | listed {due list : List (JobSchedule τ)} {call : JobCall τ} {tenantId : String} {t : τ}
    {before after : World τ} :
    TypeStep due ⟨call, .schedules (.listDue tenantId t), .ok list, before, after⟩ list
  | other {due : List (JobSchedule τ)} {step : (jobPlatform τ).Step}
    (hjobs : ∀ job ∈ step.op.newJobs, MayCreate step.call due job)
    (hschedules : ∀ schedule, step.op = .schedules (.create schedule) →
      step.call.host.permits schedule.type = true) :
    TypeStep due step due

abbrev typeProtocol (τ : Type) [Timestamp τ] : Discipline (jobPlatform τ) where
  Phase := List (JobSchedule τ)
  start _ := []
  next := TypeStep
  final _ _ _ := True

/-- The calls that create nothing but what the process may create. -/
def typedCalls (call : JobCall τ) (due : List (JobSchedule τ)) : Set (AppOp τ) :=
  {op | (∀ job ∈ op.newJobs, MayCreate call due job) ∧
    ∀ schedule, op = .schedules (.create schedule) → call.host.permits schedule.type = true}

section conformance

variable {call : JobCall τ} {due : List (JobSchedule τ)} {α : Type}

omit [Timestamp τ] in
theorem typed_working : Working (typedCalls call due) where
  authority := by
    rintro op ⟨o, rfl⟩
    exact ⟨(fun _ h => by cases h), (fun _ h => by cases h)⟩
  audit _ := ⟨(fun _ h => by cases h), (fun _ h => by cases h)⟩
  schedules op hop := by
    refine ⟨(fun _ h => by cases h), fun s h => ?_⟩
    obtain rfl := AppOp.schedules.inj h
    cases hop
  jobs op hop := by
    refine ⟨fun job h => ?_, (fun s h => by cases h)⟩
    cases op with
    | create job => exact absurd rfl (hop job)
    | _ => cases h
  start _ _ := ⟨(fun _ h => by cases h), (fun _ h => by cases h)⟩

theorem conforms_typed {t : Svc τ α} (h : Task.Uses (S := services τ) (typedCalls call due) t) :
    (typeProtocol τ).Conforms call t due (fun _ due' => due' = due) := by
  refine Discipline.Conforms.of_idle (Task.Uses.mono (fun op hop => ?_) h)
  intro choice before res after _
  exact .other hop.1 hop.2

omit [Timestamp τ] in
theorem create_typed {job : Job τ} (h : MayCreate call due job) :
    AppOp.jobs (.create job) ∈ typedCalls call due := by
  refine ⟨fun job' hmem => ?_, (fun _ h => by cases h)⟩
  obtain rfl := List.mem_singleton.mp hmem
  exact h

omit [Timestamp τ] in
theorem createSchedule_typed {schedule : JobSchedule τ}
    (h : call.host.permits schedule.type = true) :
    AppOp.schedules (.create schedule) ∈ typedCalls call due := by
  refine ⟨(fun _ h => by cases h), fun schedule' heq => ?_⟩
  cases heq
  exact h

/-- An execution creates nothing; the handlers of a host are awaited. -/
theorem uses_executeJob_typed (tenantId jobId workerId : String) :
    Task.Uses (S := services τ) (typedCalls call due)
      (call.host.service.executeJob tenantId jobId workerId) := by
  refine JobService.uses_executeJob typed_working _ (fun type handler h job execution => ?_) _ _ _
  simp only [JobHost.service] at h
  split at h
  · obtain rfl := Option.some.inj h
    exact Task.uses_perform ⟨(fun _ h => by cases h), (fun _ h => by cases h)⟩
  · cases h

theorem conforms_processRecurringSchedules (tenantId : String)
    (hentry : call.entry.processesSchedules = true) :
    (typeProtocol τ).Conforms call (JobService.processRecurringSchedules tenantId) due
      (fun _ _ => True) := by
  unfold JobService.processRecurringSchedules
  refine Discipline.Conforms.bind (conforms_typed (typed_working.uses uses_now)) ?_
    (fun _ _ _ => trivial)
  intro t due' hdue
  subst hdue
  refine Discipline.Conforms.await_bind ?_
  intro choice before res after _
  cases res with
  | error e => exact ⟨_, .other (fun _ h => by cases h) (fun _ h => by cases h), trivial⟩
  | ok list =>
    refine ⟨list, .listed, ?_⟩
    refine Discipline.Conforms.mono (fun _ _ _ => trivial) (conforms_typed (Task.Uses.bind
      (Task.Uses.forEach list fun schedule hmem => ?_) fun _ => trivial))
    exact JobService.uses_processSchedule typed_working.toAmbient tenantId t schedule
      (fun id => create_typed (.scheduled schedule hentry hmem rfl))
      fun next => ⟨(fun _ h => by cases h), (fun _ h => by cases h)⟩

end conformance

/-- Everything that passes the checks is of a permitted type. -/
theorem typeProtocol_obeyed : (typeProtocol τ).Obeyed := by
  rintro ⟨host, entry⟩
  have hdone : ∀ {t : Svc τ Unit}, Task.Uses (S := services τ) (typedCalls ⟨host, entry⟩ []) t →
      (typeProtocol τ).Conforms ⟨host, entry⟩ t [] (fun _ _ => True) := fun ht =>
    Discipline.Conforms.mono (fun _ _ _ => trivial) (conforms_typed ht)
  have hjob : ∀ (input : CreateJobInput τ), assertApplicationJobType input.type = .ok () →
      (host.service (τ := τ)).assertAllowedType input.type
        (host.service (τ := τ)).authority.isSome = .ok () →
      ∀ tenantId id t applicationId principal authorizedBy, AppOp.jobs (.create
        (host.service.jobRecord { input with tenantId } id t applicationId principal authorizedBy)) ∈
          typedCalls ⟨host, entry⟩ [] := fun input happlication hallowed _ _ _ _ _ _ =>
    create_typed (.permitted (JobHost.permits_of_checks _ happlication hallowed))
  have hschedule : ∀ (input : ScheduleRecurringInput), assertApplicationJobType input.type = .ok () →
      (host.service (τ := τ)).assertAllowedType input.type
        (host.service (τ := τ)).authority.isSome = .ok () →
      ∀ tenantId id (t next : τ) principalId applicationId principal authorizedBy,
        AppOp.schedules (.create (JobService.scheduleRecord { input with tenantId } id t next
          principalId applicationId principal authorizedBy)) ∈ typedCalls ⟨host, entry⟩ [] :=
    fun input happlication hallowed _ _ _ _ _ _ _ _ =>
      createSchedule_typed (JobHost.permits_of_checks _ happlication hallowed)
  cases entry with
  | executeJob tenantId jobId workerId => exact hdone (uses_discard (uses_executeJob_typed ..))
  | work tenantId workerId =>
    refine hdone (Task.Uses.bind (typed_working.uses uses_now) fun t => ?_)
    refine Task.Uses.bind (typed_working.uses_jobs fun _ h => by cases h) fun due => ?_
    split
    · trivial
    · exact (uses_executeJob_typed ..).bind fun _ => trivial
  | managedRound tenantId workerId =>
    refine Discipline.Conforms.bind (conforms_processRecurringSchedules tenantId rfl) ?_
      (fun _ _ _ => trivial)
    intro _ due _
    refine Discipline.Conforms.mono (fun _ _ _ => trivial) (conforms_typed (Task.Uses.bind
      (Task.Uses.bind (typed_working.uses uses_now) fun _ =>
        typed_working.uses_jobs fun _ h => by cases h) fun list => ?_))
    exact Task.Uses.forEach list fun job _ => (uses_executeJob_typed ..).bind fun _ => trivial
  | retry tenantId jobId caller => exact hdone (uses_discard (JobService.uses_retry typed_working ..))
  | enqueue input caller =>
    exact hdone (uses_discard (host.service.uses_enqueue typed_working.toAmbient input caller
      (hjob input)))
  | schedule input caller =>
    exact hdone (uses_discard (host.service.uses_schedule typed_working.toAmbient input caller
      (hjob input)))
  | scheduleRecurring input caller =>
    exact hdone (uses_discard (host.service.uses_scheduleRecurring typed_working.toAmbient input
      caller (hschedule input)))
  | systemEnqueue input =>
    exact hdone (uses_discard (host.service.uses_systemEnqueue typed_working.toAmbient input
      fun hsystem _ _ => create_typed (.system input rfl hsystem rfl rfl)))
  | disableSchedule tenantId scheduleId caller =>
    exact hdone (uses_discard (host.service.uses_disableSchedule typed_working.toAmbient ..))
  | processRecurringSchedules tenantId =>
    refine Discipline.Conforms.bind (conforms_processRecurringSchedules tenantId rfl) ?_
      (fun _ _ _ => trivial)
    intro _ _ _
    trivial
  | createSchedule input caller =>
    exact hdone (uses_discard (host.schedules.uses_create typed_working.toAmbient input caller
      (hschedule input)))
  | importSchedules document dryRun overwrite caller =>
    exact hdone (host.schedules.uses_importSchedules typed_working.toAmbient document dryRun
      overwrite caller hschedule)
  | authorize capability caller resource requestId =>
    simp only [jobBody]
    split
    · next gateway _ =>
      exact hdone (uses_discard (typed_working.uses (gateway.uses_authorize ..)))
    · trivial
  | transaction calls =>
    refine hdone (uses_transaction typed_working.authority
      (fun _ => ⟨(fun _ h => by cases h), (fun _ h => by cases h)⟩) host.authority calls fun ops hops => ?_)
    refine ⟨fun job hjob => ?_, (fun _ h => by cases h)⟩
    obtain ⟨op, hop, heq⟩ := List.mem_filterMap.mp hjob
    cases op with
    | job job' =>
      obtain rfl := Option.some.inj heq
      obtain ⟨input, context, hmem, hcontext, delegationId, id, t, rfl⟩ := hops _ hop
      exact .queued calls input context rfl hmem hcontext rfl
    | evidence | jobAudit | delivery | webhookAudit | notification | notificationDelivery
    | notificationAudit => cases heq

/-! ## Every record has an origin -/

/-- A `queueJob` with a context that was issued for its type, of a type the host may use. -/
def JobHost.permitsCall (host : JobHost) : TransactionCall τ → Bool
  | .queueJob input context =>
    context.resource.attribute "jobType" != some input.type || host.permits input.type
  | .queueNotification .. | .queueWebhookDeliveries .. => true

/-- A transaction that commits jobs was asked for permitted types only. -/
def queuesPermitted (_ : (jobPlatform τ).History) : (jobPlatform τ).Event → Bool
  | .ran _ step => match step.call.entry with
    | .transaction calls =>
      step.op.newJobs.isEmpty || calls.all fun call => step.call.host.permitsCall call.1
    | _ => true
  | .stopped _ _ => true

/-- The jobs stored when the step was taken had an origin. -/
def StoredWithOrigin (older : (jobPlatform τ).History) (e : (jobPlatform τ).Event) : Prop :=
  ∀ pid step, e = .ran pid step → ∀ id job, step.before.jobs.get id = some job → Origin older job

structure Typed (w : World τ) (past : (jobPlatform τ).History) : Prop where
  jobs : ∀ id job, w.jobs.get id = some job → job.id = id ∧ Origin past job
  schedules : ∀ id schedule, w.schedules.get id = some schedule →
    schedule.id = id ∧ Declared past schedule
  older : Throughout StoredWithOrigin past

section step

variable {step : (jobPlatform τ).Step} {due due' : List (JobSchedule τ)} {choice : Choice}
  {past : (jobPlatform τ).History} {pid : Nat}

/-- What a process may create has an origin, unless a transaction was asked for a type
its application may not use. -/
theorem MayCreate.origin {job : Job τ} (h : MayCreate step.call due job)
    (hdue : ∀ schedule ∈ due, Declared past schedule) (hnew : job ∈ step.op.newJobs)
    (hget : step.after.jobs.get job.id = some job)
    (hcond : queuesPermitted past (.ran pid step) = true) :
    Origin (.ran pid step :: past) job := by
  have hmem : Event.ran pid step ∈ Event.ran pid step :: past := List.mem_cons_self
  have hcreates : Creates job step := ⟨job, hnew, SameJob.refl job, hget⟩
  cases h with
  | system input hentry hsystem htype hpayload =>
    exact .inl ⟨hsystem, pid, step, input, hmem, hcreates, hentry, htype, hpayload⟩
  | permitted hpermits => exact .inr ⟨pid, step, hmem, hcreates, .inl hpermits⟩
  | scheduled schedule hentry hlisted htype =>
    exact .inr ⟨pid, step, hmem, hcreates, .inr ⟨hentry, schedule,
      (hdue schedule hlisted).grow (List.subset_cons_self _ _), htype⟩⟩
  | queued calls input context hentry hcall hcontext htype =>
    have hcalls : calls.all (fun call => step.call.host.permitsCall call.1) = true := by
      simp only [queuesPermitted, hentry, Bool.or_eq_true, List.isEmpty_iff] at hcond
      rcases hcond with hnone | hcalls
      · rw [hnone] at hnew
        cases hnew
      · exact hcalls
    obtain ⟨⟨call, rethrown⟩, hmem', rfl⟩ := List.mem_map.mp hcall
    have hpermits := List.all_eq_true.mp hcalls _ hmem'
    simp only [JobHost.permitsCall, hcontext, bne_self_eq_false, Bool.false_or] at hpermits
    exact .inr ⟨pid, step, hmem, hcreates, .inl (htype ▸ hpermits)⟩

theorem TypeStep.mayCreate {job : Job τ} (h : TypeStep due step due')
    (hnew : job ∈ step.op.newJobs) : MayCreate step.call due job := by
  cases h with
  | listed => cases hnew
  | other hjobs => exact hjobs job hnew

theorem TypeStep.permits {schedule : JobSchedule τ} (h : TypeStep due step due')
    (hop : step.op = .schedules (.create schedule)) :
    step.call.host.permits schedule.type = true := by
  cases h with
  | listed => cases hop
  | other _ hschedules => exact hschedules schedule hop

/-- A step keeps the origins of jobs. -/
theorem Typed.stepJobs (h : Typed step.before past) (hnext : TypeStep due step due')
    (hdue : ∀ schedule ∈ due, Declared past schedule)
    (hexec : AppOp.exec step.op choice step.before = some (step.res, step.after))
    (hcond : queuesPermitted past (.ran pid step) = true) (id : String) (job : Job τ)
    (hget : step.after.jobs.get id = some job) :
    job.id = id ∧ Origin (.ran pid step :: past) job := by
  rcases exec_job hexec id with hsame | ⟨new, hnew, hid, -, hget'⟩ | ⟨old, u, -, hold, hget'⟩
  · obtain ⟨hid, horigin⟩ := h.jobs id job (hsame.symm.trans hget)
    exact ⟨hid, horigin.grow (List.subset_cons_self _ _)⟩
  · rw [hget] at hget'
    obtain rfl := Option.some.inj hget'
    subst hid
    exact ⟨rfl, (hnext.mayCreate hnew).origin hdue hnew hget hcond⟩
  · rw [hget] at hget'
    obtain rfl := Option.some.inj hget'
    obtain ⟨hid, horigin⟩ := h.jobs id old hold
    have hsame := u.written_same old
    exact ⟨hsame.id.trans hid, (horigin.same hsame).grow (List.subset_cons_self _ _)⟩

/-- A step keeps the origins of schedules. -/
theorem Typed.stepSchedules (h : Typed step.before past) (hnext : TypeStep due step due')
    (hexec : AppOp.exec step.op choice step.before = some (step.res, step.after))
    (id : String) (schedule : JobSchedule τ) (hget : step.after.schedules.get id = some schedule) :
    schedule.id = id ∧ Declared (.ran pid step :: past) schedule := by
  rcases exec_schedule hexec id with hsame | ⟨new, hop, hid, -, hget'⟩ | ⟨old, _, u, -, hold, hget'⟩
  · obtain ⟨hid, hdeclared⟩ := h.schedules id schedule (hsame.symm.trans hget)
    exact ⟨hid, hdeclared.grow (List.subset_cons_self _ _)⟩
  · rw [hget] at hget'
    obtain rfl := Option.some.inj hget'
    subst hid
    exact ⟨rfl, pid, step, List.mem_cons_self, ⟨schedule, hop, SameSchedule.refl schedule, hget⟩,
      hnext.permits hop⟩
  · rw [hget] at hget'
    obtain rfl := Option.some.inj hget'
    obtain ⟨hid, hdeclared⟩ := h.schedules id old hold
    have hsame := u.written_same old
    exact ⟨hsame.id.trans hid, (hdeclared.same hsame).grow (List.subset_cons_self _ _)⟩

/-- The due schedules a process reads are stored. -/
theorem exec_listDue {tenantId : String} {t : τ} {w w' : World τ} {list : List (JobSchedule τ)}
    (h : (AppOp.schedules (.listDue tenantId t)).exec choice w = some (.ok list, w'))
    {schedule : JobSchedule τ} (hmem : schedule ∈ list) :
    ∃ id, w.schedules.get id = some schedule := by
  simp only [AppOp.exec, ScheduleOp.exec] at h
  rcases stored_cases h with ⟨hres, -⟩ | ⟨message, hres, -⟩
  · obtain rfl := Except.ok.inj hres
    exact (Table.mem_find.mp hmem).1
  · cases hres

end step

theorem typed_inductive : (typeProtocol τ).LocalOver (fun older e => queuesPermitted older e = true)
    (fun _ _ _ => True) Typed (fun _ past _ due => ∀ schedule ∈ due, Declared past schedule) where
  spawn _ _ _ := fun _ h => by cases h
  good := by
    intro past phases pid step due due' h
    obtain ⟨choice, hexec⟩ := h.exec
    refine ⟨h.good.stepJobs h.next h.own hexec h.cond, h.good.stepSchedules h.next hexec, ?_,
      h.good.older⟩
    intro _ _ heq id job hget
    cases heq
    exact (h.good.jobs id job hget).2
  own := by
    intro past phases pid step due due' h
    obtain ⟨choice, hexec⟩ := h.exec
    obtain ⟨-, hgood, hsound, hhere, -, hnext, -⟩ := h
    cases hnext with
    | listed =>
      intro schedule hmem
      obtain ⟨id, hget⟩ := exec_listDue hexec hmem
      exact (hgood.schedules id schedule hget).2.grow (List.subset_cons_self _ _)
    | other =>
      intro schedule hmem
      exact (hsound pid due hhere schedule hmem).grow (List.subset_cons_self _ _)
  other := by
    intro past phases pid step due due' q dueq h _ hq schedule hmem
    exact (h.sound q dueq hq schedule hmem).grow (List.subset_cons_self _ _)
  stopGood := by
    intro w past pid call h _
    refine ⟨fun id job hget => ?_, fun id schedule hget => ?_, ?_, h.older⟩
    · exact (h.jobs id job hget).imp_right fun h => h.grow (List.subset_cons_self _ _)
    · exact (h.schedules id schedule hget).imp_right fun h => h.grow (List.subset_cons_self _ _)
    · intro _ _ heq
      cases heq
  stopOther := by
    intro w past pid call q dueq _ h schedule hmem
    exact (h schedule hmem).grow (List.subset_cons_self _ _)
  envGood := by
    intro w w' past move h henv
    refine ⟨fun id job hget => ?_, fun id schedule hget => ?_, h.older⟩
    · rw [jobEnv_jobs henv] at hget
      exact h.jobs id job hget
    · rw [jobEnv_schedules henv] at hget
      exact h.schedules id schedule hget
  envSound _ _ h _ := h

/-! ## Handlers of system jobs -/

/-- A handler that is started is that of a stored job. -/
def StartsStored (_ : (jobPlatform τ).History) (e : (jobPlatform τ).Event) : Prop :=
  ∀ pid step job, e = .ran pid step → startedJob step = some job →
    ∃ id stored, step.before.jobs.get id = some stored ∧ SameJob stored job

/-- A system handler that is started was given a job of the system queue. -/
def StartsQueued (older : (jobPlatform τ).History) (e : (jobPlatform τ).Event) : Prop :=
  ∀ pid step job, e = .ran pid step → startedJob step = some job →
    isSystemType job.type = true → SystemQueued older job

theorem startsStored_inductive (cond : (jobPlatform τ).History → (jobPlatform τ).Event → Prop) :
    (jobProtocol τ).LocalOver cond JobBase (fun _ past => Throughout StartsStored past)
      (fun _ _ _ _ => True) where
  spawn _ _ _ := trivial
  good := by
    intro past phases pid step ph ph' h
    refine ⟨?_, h.good⟩
    intro _ _ job heq hstart
    cases heq
    obtain ⟨id, rfl, -⟩ := h.next.starts hstart
    obtain ⟨stored, hget, hsame, -⟩ := (h.base.2 pid _ h.here).1.seen
    exact ⟨id, stored, hget, hsame⟩
  own _ := trivial
  other _ _ _ := trivial
  stopGood h _ := by
    refine ⟨?_, h⟩
    intro _ _ _ heq
    cases heq
  stopOther _ _ := trivial
  envGood _ h _ := h
  envSound _ _ _ _ := trivial

/-! ## The guarantees -/

/-- **System jobs come from the system queue.** In every run of the job service over a
store that starts empty, in which no transaction commits a job of a type its application
may not use: every stored job and schedule of a system type came from the system queue,
with the payload it was given, every other one was created by a host that may use its
type, and every system handler that is started is given a job of the system queue. -/
theorem system_jobs_from_system_queue {w : World τ} (hjobs : w.jobs = Table.empty)
    (hschedules : w.schedules = Table.empty) {as : List (jobPlatform τ).Action}
    {c : (jobPlatform τ).Config} (hrun : (jobPlatform τ).run (Config.init w) as = some c)
    (hqueues : Always queuesPermitted c.past) :
    (∀ id job, c.world.jobs.get id = some job →
      if isSystemType job.type then SystemQueued c.past job else ApplicationQueued c.past job) ∧
    (∀ id schedule, c.world.schedules.get id = some schedule →
      isSystemType schedule.type = false ∧ Declared c.past schedule) ∧
    Throughout StartsQueued c.past := by
  have hinit : Typed w ([] : (jobPlatform τ).History) := by
    refine ⟨fun id job hget => ?_, fun id schedule hget => ?_, trivial⟩
    · rw [hjobs] at hget
      cases hget
    · rw [hschedules] at hget
      cases hget
  obtain ⟨-, ⟨htyped, -⟩, -⟩ := Discipline.sound typeProtocol_obeyed
    (typed_inductive.toInductive) ⟨hinit, fun q phq hq => by cases hq⟩ hrun hqueues
  obtain ⟨-, ⟨-, hstored, -⟩, -⟩ := Discipline.sound jobProtocol_obeyed
    ((jobBase _).and (startsStored_inductive fun _ _ => True).toInductive)
    ⟨jobBase_init hjobs, trivial, fun q phq hq => by cases hq⟩ hrun
    (throughout_of_split fun _ _ _ _ => trivial)
  refine ⟨fun id job hget => ?_, fun id schedule hget => ?_, ?_⟩
  · have horigin := (htyped.jobs id job hget).2
    split
    · next hsystem => exact horigin.system hsystem
    · next hsystem => exact horigin.elim (fun h => absurd h.1 hsystem) fun h => h
  · have hdeclared := (htyped.schedules id schedule hget).2
    have hdeclared' := hdeclared
    obtain ⟨_, _, -, -, hpermits⟩ := hdeclared'
    exact ⟨JobHost.permits_application hpermits, hdeclared⟩
  · refine throughout_of_split fun newer e older hpast pid step job heq hstart hsystem => ?_
    have holder := htyped.older
    rw [hpast] at holder hstored
    obtain ⟨id, stored, hget, hsame⟩ := Throughout.split newer hstored pid step job heq hstart
    have horigin := Throughout.split newer holder pid step heq id stored hget
    exact (horigin.same hsame.symm).system hsystem

theorem system_jobs_from_system_queue_oneWorker :
    ∃ c, (jobPlatform Nat).run (Config.init { clock := 0 }) (oneWorker []) = some c ∧
      hasStarted c = true ∧ Throughout StartsQueued c.past ∧
      ∀ id job, c.world.jobs.get id = some job →
        if isSystemType job.type then SystemQueued c.past job else ApplicationQueued c.past job := by
  obtain ⟨c, hrun, hc⟩ : ∃ c, (jobPlatform Nat).run (Config.init { clock := 0 }) (oneWorker []) =
      some c ∧ (hasStarted c && decide (Always queuesPermitted c.past)) = true :=
    exists_of_run (by decide +kernel)
  simp only [Bool.and_eq_true, decide_eq_true_eq] at hc
  obtain ⟨hstarted, hqueues⟩ := hc
  obtain ⟨hjobs, -, hstarts⟩ := system_jobs_from_system_queue rfl rfl hrun hqueues
  exact ⟨c, hrun, hstarted, hstarts, hjobs⟩

/-! ### A system job queued in a transaction -/

/-- The system queue was not used. -/
def noSystemQueue (past : (jobPlatform τ).History) : Bool :=
  past.all fun
    | .ran _ step => match step.call.entry with
      | .systemEnqueue _ => false
      | _ => true
    | .stopped _ _ => true

theorem not_systemQueued {past : (jobPlatform τ).History} (h : noSystemQueue past = true)
    (job : Job τ) : ¬ SystemQueued past job := by
  rintro ⟨-, pid, step, input, hmem, -, hentry, -⟩
  have hstep := List.all_eq_true.mp h _ hmem
  simp [hentry] at hstep

/-- The last step starts a system handler, and the system queue was not used. -/
def startsUnqueued (c : (jobPlatform τ).Config) : Bool :=
  match c.past with
  | .ran _ step :: older =>
    (startedJob step).any (fun job => isSystemType job.type) && noSystemQueue older
  | _ => false

theorem not_startsQueued {c : (jobPlatform τ).Config} (h : startsUnqueued c = true) :
    ¬ Throughout StartsQueued c.past := by
  intro hall
  unfold startsUnqueued at h
  split at h
  · next pid step older hpast =>
    simp only [Bool.and_eq_true, Option.any_eq_true] at h
    obtain ⟨⟨job, hstart, hsystem⟩, hnone⟩ := h
    rw [hpast] at hall
    exact not_systemQueued hnone job (hall.1 pid step job rfl hstart hsystem)
  · cases h

/-- A context that was issued to `ada` for a job of a system type. -/
def mailContext : ServiceExecutionContext Nat where
  application := "app"
  tenantId := "acme"
  principal := ada
  capability := "jobs.create"
  capabilityVersion := 1
  requestId := "r1"
  resource := { type := "job", tenantId := "acme", attributes := [("jobType", "appport.mail")] }
  resourceUri := "appport://app/tenants/acme/job/*"
  authorization := { decisionId := "d1", decidedAt := 0, policyVersion := none, reason := none }
  expiresAt := 60000
  ref := 1

/-- `ada` is allowed a context for the type, queues a job of it in a transaction, and a
worker executes the job. -/
def queuedMail : List (jobPlatform Nat).Action :=
  .spawn ⟨mailHost, .authorize "jobs.create" (.of ada) mailContext.resource "r1"⟩ ::
    answering 0 [.proceed, .proceed, .proceed,
      allows "d1" "jobs.create" "appport://app/tenants/acme/job/*", .proceed, .proceed, .proceed] ++
  .spawn ⟨mailHost, .transaction [(.queueJob
    { tenantId := "acme", type := "appport.mail", payload := .str "chosen" } mailContext, true)]⟩ ::
    answering 1 [.proceed, .proceed, .proceed, .draw "e1", .proceed, .draw "j1", .proceed,
      .draw "a1", .proceed] ++
  .spawn ⟨mailHost, .executeJob "acme" "j1" "w"⟩ ::
    answering 2 [.proceed, .proceed, .proceed, .proceed, .proceed]

/-- The handler runs on a payload that `ada` chose; the system queue was not used. -/
theorem queuedMail_is_not_systemQueued :
    ∃ c, (jobPlatform Nat).run (Config.init { clock := 0, verified := [ada], nextRef := 1 })
        queuedMail = some c ∧
      (∃ job, c.world.jobs.get "j1" = some job ∧ job.payload.text? = some "chosen" ∧
        isSystemType job.type = true ∧ ¬ SystemQueued c.past job) ∧
      ¬ Throughout StartsQueued c.past := by
  obtain ⟨c, hrun, hc⟩ : ∃ c, (jobPlatform Nat).run
      (Config.init { clock := 0, verified := [ada], nextRef := 1 }) queuedMail = some c ∧
      ((c.world.jobs.get "j1").any (fun job => decide (job.payload.text? = some "chosen") &&
        isSystemType job.type) && noSystemQueue c.past && startsUnqueued c) = true :=
    exists_of_run (by decide +kernel)
  simp only [Bool.and_eq_true, Option.any_eq_true, decide_eq_true_eq] at hc
  obtain ⟨⟨⟨job, hget, hpayload, hsystem⟩, hnone⟩, hstarts⟩ := hc
  exact ⟨c, hrun, ⟨job, hget, hpayload, hsystem, not_systemQueued hnone job⟩,
    not_startsQueued hstarts⟩

end AppPort
