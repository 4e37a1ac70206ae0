import AppPort.Jobs.Types

/-!
# The jobs of recurring schedules

`processRecurringSchedules` reads the due schedules, and for each of them creates a job
and then moves the schedule to its next run, under the version it read. The two writes
are separate, so a job is created for a due time once only if no one else stands between
them, and after a schedule was disabled only if the list was read before.

What a process has read, and what it has created but not advanced, is read off its own
calls. `scheduled_jobs_are_single` is the guarantee for the runs in which every job is
created from a schedule that still stands as it was listed, with nobody left to advance
it.
-/

namespace AppPort

open Effects Effects.Platform

variable {τ : Type} [Timestamp τ]

/-! ## What a process did -/

/-- The due schedules the process has listed and not worked through. -/
def dueLeft : List (jobPlatform τ).Step → List (JobSchedule τ)
  | [] => []
  | ⟨_, .schedules (.listDue ..), .ok list, _, _⟩ :: _ => list
  | ⟨_, .jobs (.create _), _, _, _⟩ :: older => (dueLeft older).tail
  | _ :: older => dueLeft older

/-- The schedule the step creates a job from, if it creates one from a schedule. -/
def createdFrom (own : List (jobPlatform τ).Step) : (jobPlatform τ).Step → Option (JobSchedule τ)
  | ⟨_, .jobs (.create job), _, before, after⟩ =>
    if changed job.id before after then (dueLeft own).head? else none
  | _ => none

/-- The step moved a schedule to its next run. -/
def advances : (jobPlatform τ).Step → Bool
  | ⟨_, .schedules (.updateSchedule _ id _ u), _, before, after⟩ =>
    u.nextRunAt.isSome &&
      (before.schedules.get id).map JobSchedule.version !=
        (after.schedules.get id).map JobSchedule.version
  | _ => false

/-- The schedule the process has created a job from and not moved on. -/
def unadvanced : List (jobPlatform τ).Step → Option (JobSchedule τ)
  | [] => none
  | step :: older =>
    match createdFrom older step with
    | some schedule => some schedule
    | none => if advances step then none else unadvanced older

/-- The schedules jobs were created from in a run, newest first. -/
def jobSources : (jobPlatform τ).History → List (JobSchedule τ)
  | [] => []
  | .ran pid step :: older =>
    match createdFrom (ownSteps pid older) step with
    | some schedule => schedule :: jobSources older
    | none => jobSources older
  | .stopped _ _ :: older => jobSources older

/-- The schedule was disabled. -/
def wasDisabled (id : String) (past : (jobPlatform τ).History) : Bool :=
  past.any fun
    | .ran _ step => (step.after.schedules.get id).any fun schedule => !schedule.enabled
    | .stopped _ _ => false

/-- No job is created from a schedule that was disabled. -/
def createsFromEnabled (older : (jobPlatform τ).History) : (jobPlatform τ).Event → Bool
  | .ran pid step => (createdFrom (ownSteps pid older) step).all fun schedule =>
    !wasDisabled schedule.id older
  | .stopped _ _ => true

/-- A job that `processRecurringSchedules` creates is that of a schedule it has listed. -/
def CreatesScheduled (older : (jobPlatform τ).History) : (jobPlatform τ).Event → Prop
  | .ran pid step => step.call.entry.processesSchedules = true →
    ∀ job, step.op = .jobs (.create job) → ∃ schedule due, dueLeft (ownSteps pid older) =
      schedule :: due ∧ ∃ id t, job = JobService.scheduledJob schedule id t
  | .stopped _ _ => True

/-! ## The condition -/

/-- Some process has yet to move this very state of the schedule on; it may have been
stopped. -/
def someoneAdvances (schedule : JobSchedule τ) (past : (jobPlatform τ).History) : Bool :=
  past.any fun
    | .ran pid _ => (unadvanced (ownSteps pid past)).any fun s =>
      s.id == schedule.id && s.version == schedule.version
    | .stopped _ _ => false

/-- What a step may be. A job is created from a schedule only while that stands as it was
listed and nobody has yet to move it on; and a next run is later than the one before it. -/
def createsFromCurrent (older : (jobPlatform τ).History) : (jobPlatform τ).Event → Bool
  | .ran pid step =>
    ((createdFrom (ownSteps pid older) step).all fun schedule =>
      (step.before.schedules.get schedule.id).any (fun s => s.version == schedule.version) &&
        !someoneAdvances schedule older) &&
    match step.op with
    | .schedules (.updateSchedule _ id _ u) => u.nextRunAt.all fun next =>
      (step.before.schedules.get id).all fun s => decide (s.nextRunAt < next)
    | _ => true
  | .stopped _ _ => true

/-! ## The protocol -/

/-- Where a process stands with the due schedules. -/
inductive RecurringPhase (τ : Type) where
  /-- It has not listed any. -/
  | idle
  /-- It has these left. -/
  | working (due : List (JobSchedule τ))
  /-- It has created a job from the first, and has to move it on. -/
  | created (schedule : JobSchedule τ) (due : List (JobSchedule τ))
  /-- A write of its was refused. -/
  | failed

/-- Calls that create no job, list no due schedules and move none on. -/
def AppOp.leavesDue : AppOp τ → Bool
  | .jobs (.create _) | .schedules (.listDue ..) => false
  | .schedules (.updateSchedule _ _ _ u) => u.disables
  | _ => true

inductive RecurringStep : RecurringPhase τ → (jobPlatform τ).Step → RecurringPhase τ → Prop where
  | plain {ph : RecurringPhase τ} {step : (jobPlatform τ).Step} (hop : step.op.leavesDue = true) :
    RecurringStep ph step ph
  /-- A job that comes from no schedule. -/
  | enqueue {call : JobCall τ} {job : Job τ} {res : Except JsError Unit} {before after : World τ}
    (hentry : call.entry.processesSchedules = false) :
    RecurringStep .idle ⟨call, .jobs (.create job), res, before, after⟩ .idle
  | list {call : JobCall τ} {tenantId : String} {t : τ}
    {res : Except JsError (List (JobSchedule τ))} {before after : World τ} :
    RecurringStep .idle ⟨call, .schedules (.listDue tenantId t), res, before, after⟩
      (match res with | .ok due => .working due | .error _ => .idle)
  | create {call : JobCall τ} {job : Job τ} {schedule : JobSchedule τ} {due : List (JobSchedule τ)}
    {res : Except JsError Unit} {before after : World τ}
    (hjob : ∃ id t, job = JobService.scheduledJob schedule id t) :
    RecurringStep (.working (schedule :: due)) ⟨call, .jobs (.create job), res, before, after⟩
      (match res with | .ok _ => .created schedule due | .error _ => .failed)
  | advance {call : JobCall τ} {tenantId : String} {schedule : JobSchedule τ}
    {due : List (JobSchedule τ)} {next : τ} {res : Except JsError (Option (JobSchedule τ))}
    {before after : World τ} :
    RecurringStep (.created schedule due)
      ⟨call, .schedules (.updateSchedule tenantId schedule.id schedule.version
        { nextRunAt := some next }), res, before, after⟩
      (match res with | .ok _ => .working due | .error _ => .failed)

abbrev recurringProtocol (τ : Type) [Timestamp τ] : Discipline (jobPlatform τ) where
  Phase := RecurringPhase τ
  start _ := .idle
  next := RecurringStep
  final _ _ _ := True

section conformance

variable {call : JobCall τ} {ph : RecurringPhase τ} {α : Type}

/-- Calls that leave every phase as it is. -/
def undueCalls : Set (AppOp τ) := {op | op.leavesDue = true}

/-- Calls of a process that has listed no due schedules. -/
def idleCalls : Set (AppOp τ) := {op | op.leavesDue = true ∨ ∃ job, op = .jobs (.create job)}

omit [Timestamp τ] in
theorem undue_working : Working (undueCalls : Set (AppOp τ)) where
  authority := by
    rintro _ ⟨o, rfl⟩
    rfl
  audit _ := rfl
  schedules op hop := by
    cases op with
    | get | list => rfl
    | updateSchedule => exact hop
    | create | listDue => cases hop
  jobs op hop := by
    cases op with
    | create job => exact absurd rfl (hop job)
    | _ => rfl
  start _ _ := rfl

omit [Timestamp τ] in
theorem idle_ambient : Ambient (idleCalls : Set (AppOp τ)) where
  authority _ hop := .inl (undue_working.authority hop)
  audit event := .inl (undue_working.audit event)
  schedules _ hop := .inl (undue_working.schedules _ hop)

theorem recurring_undue {t : Svc τ α} (h : Task.Uses (S := services τ) undueCalls t) :
    (recurringProtocol τ).Conforms call t ph (fun _ ph' => ph' = ph) := by
  refine Discipline.Conforms.of_idle (Task.Uses.mono (fun op hop => ?_) h)
  intro choice before res after _
  exact .plain hop

theorem recurring_idle (hentry : call.entry.processesSchedules = false) {t : Svc τ α}
    (h : Task.Uses (S := services τ) idleCalls t) :
    (recurringProtocol τ).Conforms call t .idle (fun _ _ => True) := by
  refine Discipline.Conforms.mono (fun _ _ _ => trivial) (Discipline.Conforms.of_idle
    (Task.Uses.mono (fun op hop => ?_) h))
  intro choice before res after _
  rcases hop with hop | ⟨job, rfl⟩
  · exact .plain hop
  · exact .enqueue hentry

/-- Calls that leave the due schedules alone, and then a task from the same phase. -/
theorem recurring_undue_bind {β : Type} {t : Svc τ α} {f : α → Svc τ β}
    {Q : Except JsError β → RecurringPhase τ → Prop}
    (ht : Task.Uses (S := services τ) undueCalls t) (herr : ∀ e, Q (.error e) ph)
    (hf : ∀ a, (recurringProtocol τ).Conforms call (f a) ph Q) :
    (recurringProtocol τ).Conforms call (t.bind f) ph Q := by
  refine Discipline.Conforms.bind (recurring_undue ht) ?_ ?_
  · intro a ph' hph
    subst hph
    exact hf a
  · intro e ph' hph
    subst hph
    exact herr e

/-- One due schedule. -/
theorem recurring_processSchedule (tenantId : String) (t : τ) (schedule : JobSchedule τ)
    (due : List (JobSchedule τ)) : (recurringProtocol τ).Conforms call
      (JobService.processSchedule tenantId t schedule) (.working (schedule :: due))
      (fun r ph' => match r with | .ok _ => ph' = .working due | .error _ => True) := by
  unfold JobService.processSchedule
  refine recurring_undue_bind (undue_working.uses uses_randomUUID) (fun _ => trivial) fun jobId => ?_
  refine Discipline.Conforms.await_bind ?_
  intro choice before res after _
  refine ⟨_, .create ⟨jobId, t, rfl⟩, ?_⟩
  cases res with
  | error e => trivial
  | ok _ =>
    refine recurring_undue_bind (Task.uses_settled _ _) (fun _ => trivial) fun next => ?_
    refine Discipline.Conforms.await_bind ?_
    intro choice before res after _
    refine ⟨_, .advance, ?_⟩
    cases res with
    | error e => trivial
    | ok updated =>
      cases updated with
      | none => rfl
      | some s =>
        refine recurring_undue_bind (undue_working.uses uses_randomUUID) (fun _ => trivial) fun id => ?_
        refine Discipline.Conforms.mono ?_ (recurring_undue
          (Task.uses_perform (undue_working.audit _)))
        intro r ph' hph
        cases r with
        | ok _ => exact hph
        | error _ => trivial

/-- All of them: the process has left what the loop has left. -/
theorem recurring_processSchedules (tenantId : String) (t : τ) : (due : List (JobSchedule τ)) →
    (recurringProtocol τ).Conforms call
      (Task.forEach (JobService.processSchedule tenantId t) due) (.working due)
      (fun r ph' => match r with | .ok _ => ph' = .working [] | .error _ => True)
  | [] => rfl
  | schedule :: due => by
    refine Discipline.Conforms.bind (recurring_processSchedule tenantId t schedule due) ?_
      (fun _ _ _ => trivial)
    rintro _ ph' rfl
    exact recurring_processSchedules tenantId t due

theorem recurring_processRecurringSchedules (tenantId : String) :
    (recurringProtocol τ).Conforms call (JobService.processRecurringSchedules (τ := τ) tenantId)
      .idle (fun r ph' => match r with | .ok _ => ph' = .working [] | .error _ => True) := by
  unfold JobService.processRecurringSchedules
  refine recurring_undue_bind (undue_working.uses uses_now) (fun _ => trivial) fun t => ?_
  refine Discipline.Conforms.await_bind ?_
  intro choice before res after _
  refine ⟨_, .list, ?_⟩
  cases res with
  | error e => trivial
  | ok due =>
    exact Discipline.Conforms.bind (recurring_processSchedules tenantId t due)
      (fun _ _ hph => hph) (fun _ _ _ => trivial)

/-- An execution lists no schedules; the handlers of a host are awaited. -/
theorem uses_executeJob_undue (call : JobCall τ) (tenantId jobId workerId : String) :
    Task.Uses (S := services τ) undueCalls (call.host.service.executeJob tenantId jobId workerId) := by
  refine JobService.uses_executeJob undue_working _ (fun type handler h job execution => ?_) _ _ _
  simp only [JobHost.service] at h
  split at h
  · obtain rfl := Option.some.inj h
    exact Task.uses_perform rfl
  · cases h

omit [Timestamp τ] in
/-- Calls of a working process are calls of one that has listed nothing. -/
theorem uses_idle {t : Svc τ α} (h : Task.Uses (S := services τ) undueCalls t) :
    Task.Uses (S := services τ) idleCalls t := h.mono fun _ hop => .inl hop

end conformance

omit [Timestamp τ] in
theorem create_idle (job : Job τ) : AppOp.jobs (.create job) ∈ idleCalls := .inr ⟨job, rfl⟩

omit [Timestamp τ] in
theorem createSchedule_idle (schedule : JobSchedule τ) :
    AppOp.schedules (.create schedule) ∈ idleCalls := .inl rfl

theorem recurringProtocol_obeyed : (recurringProtocol τ).Obeyed := by
  rintro ⟨host, entry⟩
  cases entry with
  | executeJob tenantId jobId workerId =>
    exact recurring_idle rfl (uses_discard (uses_idle
      (uses_executeJob_undue ⟨host, .executeJob tenantId jobId workerId⟩ ..)))
  | work tenantId workerId =>
    refine recurring_idle rfl (uses_idle (Task.Uses.bind (undue_working.uses uses_now) fun t => ?_))
    refine Task.Uses.bind (undue_working.uses_jobs fun _ h => by cases h) fun due => ?_
    split
    · trivial
    · exact (uses_executeJob_undue ⟨host, .work tenantId workerId⟩ ..).bind
        fun _ => trivial
  | managedRound tenantId workerId =>
    refine Discipline.Conforms.bind (recurring_processRecurringSchedules tenantId) ?_
      (fun _ _ _ => trivial)
    intro _ ph _
    refine Discipline.Conforms.mono (fun _ _ _ => trivial) (recurring_undue (Task.Uses.bind
      (Task.Uses.bind (undue_working.uses uses_now) fun _ =>
        undue_working.uses_jobs fun _ h => by cases h) fun list => ?_))
    exact Task.Uses.forEach list fun job _ =>
      (uses_executeJob_undue ⟨host, .managedRound tenantId workerId⟩ ..).bind
        fun _ => trivial
  | retry tenantId jobId caller =>
    exact recurring_idle rfl (uses_idle (uses_discard (JobService.uses_retry undue_working ..)))
  | enqueue input caller =>
    exact recurring_idle rfl (uses_discard (host.service.uses_enqueue idle_ambient input caller
      fun _ _ _ _ _ _ _ _ => create_idle _))
  | schedule input caller =>
    exact recurring_idle rfl (uses_discard (host.service.uses_schedule idle_ambient input caller
      fun _ _ _ _ _ _ _ _ => create_idle _))
  | scheduleRecurring input caller =>
    exact recurring_idle rfl (uses_discard (host.service.uses_scheduleRecurring idle_ambient input
      caller fun _ _ _ _ _ _ _ _ _ _ => createSchedule_idle _))
  | systemEnqueue input =>
    exact recurring_idle rfl (uses_discard (host.service.uses_systemEnqueue idle_ambient input
      fun _ _ _ => create_idle _))
  | disableSchedule tenantId scheduleId caller =>
    exact recurring_idle rfl (uses_discard (host.service.uses_disableSchedule idle_ambient ..))
  | processRecurringSchedules tenantId =>
    exact Discipline.Conforms.bind (recurring_processRecurringSchedules tenantId)
      (fun _ _ _ => trivial) (fun _ _ _ => trivial)
  | createSchedule input caller =>
    exact recurring_idle rfl (uses_discard (host.schedules.uses_create idle_ambient input caller
      fun _ _ _ _ _ _ _ _ _ _ => createSchedule_idle _))
  | importSchedules document dryRun overwrite caller =>
    exact recurring_idle rfl (host.schedules.uses_importSchedules idle_ambient document dryRun
      overwrite caller fun _ _ _ _ _ _ _ _ _ _ _ => createSchedule_idle _)
  | authorize capability caller resource requestId =>
    simp only [jobBody]
    split
    · next gateway _ =>
      exact recurring_idle rfl (uses_discard (idle_ambient.uses (gateway.uses_authorize ..)))
    · trivial
  | transaction calls =>
    exact recurring_idle rfl (uses_transaction idle_ambient.authority (fun _ => .inl rfl)
      host.authority calls fun _ _ => .inl rfl)

/-! ## What a step does to the schedules -/

omit [Timestamp τ] in
/-- Every call moves the schedules along the fence. -/
theorem fence_of_changes {op : AppOp τ} {w w' : World τ}
    (h : ∀ id, ScheduleChange id op w w') : w.schedules.Fence w'.schedules := by
  intro id schedule hget
  rcases h id with hsame | ⟨_, -, -, habsent, -⟩ | ⟨old, _, u, -, hold, hnew⟩
  · exact Table.Seen.of_get (hsame.trans hget)
  · rw [hget] at habsent
    cases habsent
  · rw [hget] at hold
    obtain rfl := Option.some.inj hold
    refine ⟨_, hnew, Nat.le_succ _, fun hv => ?_⟩
    exact absurd hv (Nat.succ_ne_self _)

/-- The schedule was read, and some time may have passed. -/
def HasRead (w : World τ) (schedule : JobSchedule τ) : Prop :=
  w.schedules.Seen schedule.id schedule ∧ schedule.enabled = true

/-- Schedules are stored under their ids. -/
def KeyedSchedules (w : World τ) : Prop :=
  ∀ id schedule, w.schedules.get id = some schedule → schedule.id = id

/-- **What becomes of a schedule a job was created from.** Either it still stands, and
somebody has yet to move it on, or it was moved on or disabled. -/
def Advancing (w : World τ) (past : (jobPlatform τ).History) (schedule : JobSchedule τ) : Prop :=
  ∃ stored, w.schedules.get schedule.id = some stored ∧
    (stored = schedule ∧ (∃ pid, unadvanced (ownSteps pid past) = some schedule) ∨
      schedule.version < stored.version ∧
        (stored.enabled = true → schedule.nextRunAt < stored.nextRunAt))

/-- What is known of the schedules in a run that meets the condition. -/
structure Recurring (w : World τ) (past : (jobPlatform τ).History) : Prop where
  advancing : ∀ schedule ∈ jobSources past, Advancing w past schedule
  single : ((jobSources past).map fun schedule => (schedule.id, schedule.nextRunAt)).Nodup
  disabled : ∀ id, wasDisabled id past = true →
    ∃ stored, w.schedules.get id = some stored ∧ stored.enabled = false
  enabled : Always createsFromEnabled past

/-- What a phase says of the world and of what its process did. -/
def RecurringPhase.Sound (w : World τ) (own : List (jobPlatform τ).Step) : RecurringPhase τ → Prop
  | .idle => dueLeft own = [] ∧ unadvanced own = none
  | .working due => dueLeft own = due ∧ (∀ schedule ∈ due, HasRead w schedule) ∧
      ∀ schedule, unadvanced own = some schedule → ∃ stored,
        w.schedules.get schedule.id = some stored ∧ schedule.version < stored.version
  | .created schedule due => dueLeft own = due ∧ unadvanced own = some schedule ∧
      ∀ s ∈ schedule :: due, HasRead w s
  | .failed => True

/-! ## What a step does to a process -/

section own

variable {step : (jobPlatform τ).Step} {own : List (jobPlatform τ).Step}

theorem createdFrom_plain (hop : step.op.leavesDue = true) : createdFrom own step = none := by
  obtain ⟨call, op, res, before, after⟩ := step
  cases op with
  | jobs o =>
    cases o with
    | create => cases hop
    | _ => rfl
  | _ => rfl

theorem dueLeft_plain (hop : step.op.leavesDue = true) : dueLeft (step :: own) = dueLeft own := by
  obtain ⟨call, op, res, before, after⟩ := step
  cases op with
  | jobs o =>
    cases o with
    | create => cases hop
    | _ => rfl
  | schedules o =>
    cases o with
    | listDue => cases hop
    | _ => rfl
  | _ => rfl

theorem advances_plain (hop : step.op.leavesDue = true) : advances step = false := by
  obtain ⟨call, op, res, before, after⟩ := step
  cases op with
  | schedules o =>
    cases o with
    | updateSchedule tenantId id v u =>
      simp only [AppOp.leavesDue, ScheduleUpdate.disables, Bool.and_eq_true,
        Option.isNone_iff_eq_none] at hop
      simp [advances, hop.2]
    | _ => rfl
  | _ => rfl

theorem unadvanced_same (hcreated : createdFrom own step = none) (hadvances : advances step = false) :
    unadvanced (step :: own) = unadvanced own := by
  simp [unadvanced, hcreated, hadvances]

/-- A job is created from the first of the schedules that are left. -/
theorem createdFrom_some {schedule : JobSchedule τ} (h : createdFrom own step = some schedule) :
    (∃ job, step.op = .jobs (.create job)) ∧ (dueLeft own).head? = some schedule := by
  obtain ⟨call, op, res, before, after⟩ := step
  cases op with
  | jobs o =>
    cases o with
    | create job =>
      simp only [createdFrom] at h
      split at h
      · exact ⟨⟨job, rfl⟩, h⟩
      · cases h
    | _ => cases h
  | _ => cases h

end own

section exec

variable {choice : Choice} {w w' : World τ}

/-- A job that was created was not there before. -/
theorem exec_create_changed {job : Job τ}
    (h : (AppOp.jobs (.create job)).exec choice w = some (.ok (), w')) :
    changed job.id w w' = true := by
  simp only [AppOp.exec, JobOp.exec] at h
  cases hinsert : w.jobs.insertAbsent job.id job with
  | none =>
    rw [hinsert] at h
    rcases stored_cases h with ⟨hres, -⟩ | ⟨_, hres, -⟩ <;> cases hres
  | some jobs' =>
    rw [hinsert] at h
    obtain ⟨habsent, rfl⟩ := Table.insertAbsent_eq_some hinsert
    rcases stored_cases h with ⟨-, rfl⟩ | ⟨_, hres, -⟩
    · simp [changed, habsent]
    · cases hres

/-- A write under the stored version goes through, unless it is reported as failed. -/
theorem exec_updateSchedule {tenantId id : String} {stored : JobSchedule τ} {u : ScheduleUpdate τ}
    {r : Option (JobSchedule τ)}
    (h : (AppOp.schedules (.updateSchedule tenantId id stored.version u)).exec choice w =
      some (.ok r, w')) (hget : w.schedules.get id = some stored) :
    w'.schedules.get id = some (u.written stored) := by
  simp only [AppOp.exec, ScheduleOp.exec, Table.updateIfVersion, hget, version_schedule,
    if_true] at h
  rcases stored_cases h with ⟨-, rfl⟩ | ⟨_, hres, -⟩
  · exact Table.get_put_same ..
  · cases hres

/-- What is listed as due is enabled. -/
theorem enabled_of_listDue {tenantId : String} {t : τ} {list : List (JobSchedule τ)}
    (h : (AppOp.schedules (.listDue tenantId t)).exec choice w = some (.ok list, w'))
    {schedule : JobSchedule τ} (hmem : schedule ∈ list) : schedule.enabled = true := by
  simp only [AppOp.exec, ScheduleOp.exec] at h
  rcases stored_cases h with ⟨hres, -⟩ | ⟨message, hres, -⟩
  · obtain rfl := Except.ok.inj hres
    have hdue := (Table.mem_find.mp hmem).2
    simp only [isDueSchedule, Bool.and_eq_true] at hdue
    exact hdue.2.1
  · cases hres

end exec

omit [Timestamp τ] in
theorem HasRead.fence {w w' : World τ} {schedule : JobSchedule τ} (h : HasRead w schedule)
    (hfence : w.schedules.Fence w'.schedules) : HasRead w' schedule := ⟨h.1.fence hfence, h.2⟩

/-- What a process knows stays true while others write. -/
theorem RecurringPhase.Sound.fence {w w' : World τ} {own : List (jobPlatform τ).Step}
    {ph : RecurringPhase τ} (h : ph.Sound w own) (hfence : w.schedules.Fence w'.schedules) :
    ph.Sound w' own := by
  cases ph with
  | idle => exact h
  | working due =>
    refine ⟨h.1, fun s hs => (h.2.1 s hs).fence hfence, fun schedule hown => ?_⟩
    obtain ⟨stored, hget, hlt⟩ := h.2.2 schedule hown
    obtain ⟨stored', hget', hle, -⟩ := hfence _ stored hget
    exact ⟨stored', hget', Nat.lt_of_lt_of_le hlt hle⟩
  | created schedule due => exact ⟨h.1, h.2.1, fun s hs => (h.2.2 s hs).fence hfence⟩
  | failed => trivial

/-- The phase a step leads to is sound of what the process did. -/
theorem RecurringStep.sound {ph ph' : RecurringPhase τ} {step : (jobPlatform τ).Step}
    {choice : Choice} {own : List (jobPlatform τ).Step} (hstep : RecurringStep ph step ph')
    (hkeyed : KeyedSchedules step.before)
    (hexec : AppOp.exec step.op choice step.before = some (step.res, step.after))
    (h : ph.Sound step.before own) : ph'.Sound step.after (step :: own) := by
  have hfence : step.before.schedules.Fence step.after.schedules :=
    fence_of_changes fun id => exec_schedule hexec id
  have hlater := h.fence hfence
  cases hstep with
  | plain hop =>
    have hdue : dueLeft (step :: own) = dueLeft own := dueLeft_plain hop
    have hleft : unadvanced (step :: own) = unadvanced own :=
      unadvanced_same (createdFrom_plain hop) (advances_plain hop)
    cases ph with
    | idle => exact ⟨hdue.trans hlater.1, hleft.trans hlater.2⟩
    | working due =>
      refine ⟨hdue.trans hlater.1, hlater.2.1, fun schedule hown => ?_⟩
      exact hlater.2.2 schedule (hleft.symm.trans hown)
    | created schedule due => exact ⟨hdue.trans hlater.1, hleft.trans hlater.2.1, hlater.2.2⟩
    | failed => trivial
  | @enqueue call job res before after hentry =>
    have hcreated : createdFrom own ⟨call, .jobs (.create job), res, before, after⟩ = none := by
      simp [createdFrom, h.1]
    refine ⟨?_, (unadvanced_same hcreated rfl).trans h.2⟩
    simp [dueLeft, h.1]
  | @list call tenantId t res before after =>
    match res with
    | .error e => exact ⟨h.1, (unadvanced_same rfl rfl).trans h.2⟩
    | .ok due =>
      refine ⟨rfl, fun schedule hmem => ?_, fun schedule hown => ?_⟩
      · obtain ⟨id, hget⟩ := exec_listDue hexec hmem
        obtain rfl := hkeyed id schedule hget
        exact HasRead.fence ⟨Table.Seen.of_get hget, enabled_of_listDue hexec hmem⟩ hfence
      · have hown' := (unadvanced_same rfl rfl).symm.trans hown
        rw [h.2] at hown'
        cases hown'
  | @create call job schedule due res before after hjob =>
    match res with
    | .error e => trivial
    | .ok _ =>
      refine ⟨?_, ?_, hlater.2.1⟩
      · simp [dueLeft, h.1]
      · simp [unadvanced, createdFrom, exec_create_changed hexec, h.1]
  | @advance call tenantId schedule due next res before after =>
    match res with
    | .error e => trivial
    | .ok r =>
      refine ⟨h.1, fun s hs => hlater.2.2 s (List.mem_cons_of_mem _ hs), fun s hown => ?_⟩
      -- the process still has to advance the schedule, so its write met a newer one
      obtain ⟨hread, henabled⟩ := h.2.2 schedule List.mem_cons_self
      obtain ⟨stored, hget, hle, hsame⟩ := hread
      simp only [unadvanced, createdFrom] at hown
      split at hown
      · cases hown
      next hadvances =>
      rw [h.2.1] at hown
      obtain rfl := Option.some.inj hown
      rcases Nat.lt_or_eq_of_le hle with hlt | heq
      · obtain ⟨stored', hget', hle', -⟩ := hfence _ stored hget
        exact ⟨stored', hget', Nat.lt_of_lt_of_le hlt hle'⟩
      · obtain rfl := hsame heq.symm
        have hget' := exec_updateSchedule hexec hget
        have hget : before.schedules.get stored.id = some stored := hget
        have hget' : after.schedules.get stored.id =
          some (ScheduleUpdate.written { nextRunAt := some next } stored) := hget'
        simp [advances, hget, hget', ScheduleUpdate.written] at hadvances

/-! ## What a step does to the schedules of a run -/

section step

variable {ph ph' : RecurringPhase τ} {step : (jobPlatform τ).Step} {choice : Choice}
  {past : (jobPlatform τ).History} {pid : Nat}

/-- The only conditional writes of a schedule disable it, or move it to a later run. -/
theorem RecurringStep.moves {tenantId id : String} {v : Nat} {u : ScheduleUpdate τ}
    {stored : JobSchedule τ} (hstep : RecurringStep ph step ph')
    (hop : step.op = .schedules (.updateSchedule tenantId id v u))
    (hget : step.before.schedules.get id = some stored)
    (hcond : createsFromCurrent past (.ran pid step) = true) :
    u.enabled = some false ∨
      u.enabled = none ∧ ∃ next, u.nextRunAt = some next ∧ stored.nextRunAt < next := by
  have hlater : u.nextRunAt.all (fun next => decide (stored.nextRunAt < next)) = true := by
    simp only [createsFromCurrent, hop, hget, Option.all_some, Bool.and_eq_true] at hcond
    exact hcond.2
  cases hstep with
  | plain hplain =>
    rw [hop] at hplain
    simp only [AppOp.leavesDue, ScheduleUpdate.disables, Bool.and_eq_true, beq_iff_eq] at hplain
    exact .inl hplain.1
  | @advance call tenantId' schedule due next res before after =>
    cases hop
    exact .inr ⟨rfl, next, rfl, by simpa using hlater⟩
  | enqueue | list | create => cases hop

/-- A process that has to move a schedule on still has to after a step that leaves the
schedule as it was. -/
theorem RecurringStep.stillUnadvanced {schedule : JobSchedule τ} {own : List (jobPlatform τ).Step}
    (hstep : RecurringStep ph step ph') (h : ph.Sound step.before own)
    (hown : unadvanced own = some schedule)
    (hget : step.before.schedules.get schedule.id = some schedule)
    (hget' : step.after.schedules.get schedule.id = some schedule) :
    unadvanced (step :: own) = some schedule := by
  cases hstep with
  | plain hop =>
    exact (unadvanced_same (createdFrom_plain hop) (advances_plain hop)).trans hown
  | enqueue => rw [h.2] at hown; cases hown
  | list => rw [h.2] at hown; cases hown
  | create =>
    -- what is left to do is newer than what the process has created from
    obtain ⟨stored, hstored, hlt⟩ := h.2.2 schedule hown
    rw [hget] at hstored
    obtain rfl := Option.some.inj hstored
    exact absurd hlt (Nat.lt_irrefl _)
  | @advance call tenantId s due next res before after =>
    rw [h.2.1] at hown
    obtain rfl := Option.some.inj hown
    have hget : before.schedules.get s.id = some s := hget
    have hget' : after.schedules.get s.id = some s := hget'
    refine (unadvanced_same rfl ?_).trans h.2.1
    simp [advances, hget, hget']

/-- What has become of a schedule, after one more step. -/
theorem Advancing.after_step {schedule : JobSchedule τ} (h : Advancing step.before past schedule)
    (hstep : RecurringStep ph step ph') (hph : ph.Sound step.before (ownSteps pid past))
    (hexec : AppOp.exec step.op choice step.before = some (step.res, step.after))
    (hcond : createsFromCurrent past (.ran pid step) = true) :
    Advancing step.after (.ran pid step :: past) schedule := by
  obtain ⟨stored, hget, hstored⟩ := h
  rcases exec_schedule hexec schedule.id with
    hsame | ⟨_, -, -, habsent, -⟩ | ⟨old, tenantId, u, hop, hold, hnew⟩
  · refine ⟨stored, hsame.trans hget, hstored.imp_left ?_⟩
    rintro ⟨rfl, q, hown⟩
    refine ⟨rfl, q, ?_⟩
    by_cases hq : pid = q
    · subst hq
      rw [ownSteps_same]
      exact hstep.stillUnadvanced hph hown hget (hsame.trans hget)
    · rw [ownSteps_other step past hq]
      exact hown
  · rw [hget] at habsent
    cases habsent
  · rw [hget] at hold
    obtain rfl := Option.some.inj hold
    have hversion : schedule.version < (u.written stored).version := by
      rcases hstored with ⟨rfl, -⟩ | ⟨hlt, -⟩
      · exact Nat.lt_succ_self _
      · exact Nat.lt_succ_of_lt hlt
    refine ⟨_, hnew, .inr ⟨hversion, fun henabled => ?_⟩⟩
    rcases hstep.moves hop hget hcond with hdisabled | ⟨hkept, next, hnext, hlt⟩
    · simp [ScheduleUpdate.written, ScheduleUpdate.apply, hdisabled] at henabled
    · simp only [ScheduleUpdate.written, ScheduleUpdate.apply, hkept, hnext,
        Option.getD_none, Option.getD_some] at henabled ⊢
      rcases hstored with ⟨rfl, -⟩ | ⟨-, hearlier⟩
      · exact hlt
      · exact (hearlier henabled).trans hlt

/-- A job is created only from the schedule as it stands. -/
theorem RecurringStep.source {schedule : JobSchedule τ} (hstep : RecurringStep ph step ph')
    (hph : ph.Sound step.before (ownSteps pid past))
    (hcreated : createdFrom (ownSteps pid past) step = some schedule)
    (hcond : createsFromCurrent past (.ran pid step) = true) :
    step.before.schedules.get schedule.id = some schedule ∧ schedule.enabled = true ∧
      someoneAdvances schedule past = false := by
  obtain ⟨⟨job, hop⟩, hhead⟩ := createdFrom_some hcreated
  simp only [createsFromCurrent, hcreated, Option.all_some, Bool.and_eq_true,
    Bool.not_eq_true', Option.any_eq_true, beq_iff_eq] at hcond
  obtain ⟨⟨⟨stored, hget, hv⟩, hnobody⟩, -⟩ := hcond
  cases hstep with
  | plain hplain =>
    rw [hop] at hplain
    cases hplain
  | enqueue =>
    rw [hph.1] at hhead
    cases hhead
  | list | advance => cases hop
  | create =>
    rw [hph.1] at hhead
    obtain rfl := Option.some.inj hhead
    obtain ⟨hread, henabled⟩ := hph.2.1 _ List.mem_cons_self
    have hstored := hread.current hget hv
    rw [hstored] at hget
    exact ⟨hget, henabled, hnobody⟩

omit [Timestamp τ] in
theorem KeyedSchedules.after_step {op : AppOp τ} {w w' : World τ} (h : KeyedSchedules w)
    (hchange : ∀ id, ScheduleChange id op w w') : KeyedSchedules w' := by
  intro id schedule hget
  rcases hchange id with hsame | ⟨new, -, hid, -, hget'⟩ | ⟨old, _, u, -, hold, hget'⟩
  · exact h id schedule (hsame.symm.trans hget)
  · rw [hget] at hget'
    obtain rfl := Option.some.inj hget'
    exact hid
  · rw [hget] at hget'
    obtain rfl := Option.some.inj hget'
    exact h id old hold

/-- A disabled schedule stays disabled. -/
theorem RecurringStep.staysDisabled (hstep : RecurringStep ph step ph')
    (hexec : AppOp.exec step.op choice step.before = some (step.res, step.after))
    (hcond : createsFromCurrent past (.ran pid step) = true) {id : String} {stored : JobSchedule τ}
    (hget : step.before.schedules.get id = some stored) (hdisabled : stored.enabled = false) :
    ∃ stored', step.after.schedules.get id = some stored' ∧ stored'.enabled = false := by
  rcases exec_schedule hexec id with
    hsame | ⟨_, -, -, habsent, -⟩ | ⟨old, tenantId, u, hop, hold, hnew⟩
  · exact ⟨stored, hsame.trans hget, hdisabled⟩
  · rw [hget] at habsent
    cases habsent
  · rw [hget] at hold
    obtain rfl := Option.some.inj hold
    refine ⟨_, hnew, ?_⟩
    rcases hstep.moves hop hget hcond with hu | ⟨hkept, -⟩
    · simp [ScheduleUpdate.written, ScheduleUpdate.apply, hu]
    · simpa [ScheduleUpdate.written, ScheduleUpdate.apply, hkept] using hdisabled

/-- A process that has to move a schedule on has taken a step. -/
theorem someoneAdvances_of_unadvanced {schedule : JobSchedule τ} {q : Nat}
    (h : unadvanced (ownSteps q past) = some schedule) : someoneAdvances schedule past = true := by
  have hsome : ∃ st, st ∈ ownSteps q past := by
    cases hown : ownSteps q past with
    | nil =>
      rw [hown] at h
      cases h
    | cons st own => exact ⟨st, List.mem_cons_self⟩
  obtain ⟨st, hst⟩ := hsome
  refine List.any_eq_true.mpr ⟨.ran q st, mem_ownSteps.mp hst, ?_⟩
  simp [h]

/-- The next run of a schedule a job is created from is not one there was a job for. -/
theorem Recurring.fresh {schedule : JobSchedule τ} {w : World τ} (h : Recurring w past)
    (hget : w.schedules.get schedule.id = some schedule) (henabled : schedule.enabled = true)
    (hnobody : someoneAdvances schedule past = false) : (schedule.id, schedule.nextRunAt) ∉
      (jobSources past).map fun s => (s.id, s.nextRunAt) := by
  intro hmem
  obtain ⟨s, hs, heq⟩ := List.mem_map.mp hmem
  obtain ⟨hid, hnext⟩ := Prod.mk.inj heq
  obtain ⟨stored, hstored, hcases⟩ := h.advancing s hs
  rw [hid, hget] at hstored
  obtain rfl := Option.some.inj hstored
  rcases hcases with ⟨rfl, q, hown⟩ | ⟨-, hearlier⟩
  · rw [someoneAdvances_of_unadvanced hown] at hnobody
    cases hnobody
  · exact absurd hnext (ne_of_lt (hearlier henabled))

/-- **A step keeps jobs single.** -/
theorem Recurring.after_step (h : Recurring step.before past) (hstep : RecurringStep ph step ph')
    (hph : ph.Sound step.before (ownSteps pid past))
    (hexec : AppOp.exec step.op choice step.before = some (step.res, step.after))
    (hcond : createsFromCurrent past (.ran pid step) = true) :
    Recurring step.after (.ran pid step :: past) := by
  have hkept : ∀ schedule ∈ jobSources past,
      Advancing step.after (.ran pid step :: past) schedule := fun schedule hmem =>
    (h.advancing schedule hmem).after_step hstep hph hexec hcond
  have hdisabled : ∀ id, wasDisabled id (.ran pid step :: past) = true →
      ∃ stored, step.after.schedules.get id = some stored ∧ stored.enabled = false := by
    intro id hid
    simp only [wasDisabled, List.any_cons, Bool.or_eq_true, Option.any_eq_true,
      Bool.not_eq_true'] at hid
    rcases hid with hnow | hpast
    · exact hnow
    · obtain ⟨stored, hget, hstored⟩ := h.disabled id hpast
      exact hstep.staysDisabled hexec hcond hget hstored
  cases hcreated : createdFrom (ownSteps pid past) step with
  | none =>
    have hsources : jobSources (.ran pid step :: past) = jobSources past := by
      simp [jobSources, hcreated]
    refine ⟨?_, ?_, hdisabled, ?_, h.enabled⟩
    · rw [hsources]
      exact hkept
    · rw [hsources]
      exact h.single
    · simp [createsFromEnabled, hcreated]
  | some schedule =>
    obtain ⟨hget, henabled, hnobody⟩ := hstep.source hph hcreated hcond
    have hsources : jobSources (.ran pid step :: past) = schedule :: jobSources past := by
      simp [jobSources, hcreated]
    refine ⟨?_, ?_, hdisabled, ?_, h.enabled⟩
    · rw [hsources]
      intro s hs
      rcases List.mem_cons.mp hs with rfl | hold
      · refine ⟨s, ?_, .inl ⟨rfl, pid, ?_⟩⟩
        · -- creating a job leaves the schedules alone
          obtain ⟨⟨job, hop⟩, -⟩ := createdFrom_some hcreated
          rcases exec_schedule hexec s.id with
            hsame | ⟨_, hop', -, -, -⟩ | ⟨_, _, _, hop', -, -⟩
          · exact hsame.trans hget
          · rw [hop] at hop'
            cases hop'
          · rw [hop] at hop'
            cases hop'
        · rw [ownSteps_same]
          simp [unadvanced, hcreated]
      · exact hkept s hold
    · rw [hsources, List.map_cons, List.nodup_cons]
      exact ⟨h.fresh hget henabled hnobody, h.single⟩
    · simp only [createsFromEnabled, hcreated, Option.all_some, Bool.not_eq_true']
      by_contra hwas
      obtain ⟨stored, hstored, hoff⟩ := h.disabled schedule.id (Bool.not_eq_false _ ▸ hwas)
      rw [hget] at hstored
      obtain rfl := Option.some.inj hstored
      rw [henabled] at hoff
      cases hoff

/-- What `processRecurringSchedules` creates comes from the list it read. -/
theorem RecurringStep.scheduled (hstep : RecurringStep ph step ph')
    (hph : ph.Sound step.before (ownSteps pid past)) :
    CreatesScheduled past (.ran pid step) := by
  intro hentry job hop
  cases hstep with
  | plain hplain =>
    rw [hop] at hplain
    cases hplain
  | enqueue hnot =>
    rw [hnot] at hentry
    cases hentry
  | list | advance => cases hop
  | @create call job' schedule due res before after hjob =>
    obtain rfl := JobOp.create.inj (AppOp.jobs.inj hop)
    exact ⟨schedule, due, hph.1, hjob⟩

end step

/-! ## Every run -/

/-- What holds in every run: schedules are keyed, jobs are created as they were listed,
and every phase is sound. -/
theorem recurringBase (cond : (jobPlatform τ).History → (jobPlatform τ).Event → Prop) :
    (recurringProtocol τ).LocalOver cond (fun _ _ _ => True)
      (fun w past => KeyedSchedules w ∧ Throughout CreatesScheduled past)
      (fun w past pid ph => ph.Sound w (ownSteps pid past)) where
  spawn := by
    intro w past pid call _ hfresh
    rw [ownSteps_fresh hfresh]
    exact ⟨rfl, rfl⟩
  good := by
    intro past phases pid step ph ph' h
    obtain ⟨choice, hexec⟩ := h.exec
    exact ⟨h.good.1.after_step fun id => exec_schedule hexec id, h.next.scheduled h.own, h.good.2⟩
  own := by
    intro past phases pid step ph ph' h
    obtain ⟨choice, hexec⟩ := h.exec
    rw [ownSteps_same]
    exact h.next.sound h.good.1 hexec h.own
  other := by
    intro past phases pid step ph ph' q phq h hne hq
    obtain ⟨choice, hexec⟩ := h.exec
    rw [ownSteps_other step past (Ne.symm hne)]
    exact (h.sound q phq hq).fence (fence_of_changes fun id => exec_schedule hexec id)
  stopGood h _ := ⟨h.1, trivial, h.2⟩
  stopOther _ h := h
  envGood _ h henv := by
    refine ⟨fun id schedule hget => ?_, h.2⟩
    rw [jobEnv_schedules henv] at hget
    exact h.1 id schedule hget
  envSound _ _ h henv := h.fence (by rw [jobEnv_schedules henv]; exact Table.Fence.refl _)

/-- What holds of the schedules depends on them alone. -/
theorem Recurring.same {w w' : World τ} {past : (jobPlatform τ).History} (h : Recurring w past)
    (hw : w'.schedules = w.schedules) : Recurring w' past := by
  refine ⟨fun schedule hmem => ?_, h.single, ?_, h.enabled⟩
  · unfold Advancing
    rw [hw]
    exact h.advancing schedule hmem
  · rw [hw]
    exact h.disabled

theorem recurring_inductive : (recurringProtocol τ).LocalOver
    (fun older e => createsFromCurrent older e = true)
    (fun w past phases => (KeyedSchedules w ∧ Throughout CreatesScheduled past) ∧
      ∀ q phq, phases q = some phq → RecurringPhase.Sound w (ownSteps q past) phq)
    Recurring (fun _ _ _ _ => True) where
  spawn _ _ _ := trivial
  good := by
    intro past phases pid step ph ph' h
    obtain ⟨choice, hexec⟩ := h.exec
    exact h.good.after_step h.next (h.base.2 pid ph h.here) hexec h.cond
  own _ := trivial
  other _ _ _ := trivial
  stopGood h _ := ⟨h.advancing, h.single, h.disabled, rfl, h.enabled⟩
  stopOther _ _ := trivial
  envGood _ h henv := h.same (jobEnv_schedules henv)
  envSound _ _ _ _ := trivial

/-- **Jobs of recurring schedules are single.** In every run of the job service over a
store that starts without schedules, what `processRecurringSchedules` creates is the job of
a schedule it has listed. If moreover each such job is created while its schedule stands as
it was listed and nobody has yet to move that on, and next runs are later than the ones
before them, then no two jobs were created for one due time of one schedule, and none from
a schedule that had been disabled. -/
theorem scheduled_jobs_are_single {w : World τ} (hw : w.schedules = Table.empty)
    {as : List (jobPlatform τ).Action} {c : (jobPlatform τ).Config}
    (hrun : (jobPlatform τ).run (Config.init w) as = some c) :
    Throughout CreatesScheduled c.past ∧
      (Always createsFromCurrent c.past →
        ((jobSources c.past).map fun schedule => (schedule.id, schedule.nextRunAt)).Nodup ∧
        Always createsFromEnabled c.past) := by
  have hkeyed : KeyedSchedules w := by
    intro id schedule hget
    rw [hw] at hget
    cases hget
  refine ⟨?_, fun hcond => ?_⟩
  · obtain ⟨phases, ⟨⟨-, hscheduled⟩, -⟩, -⟩ := Discipline.sound recurringProtocol_obeyed
      (recurringBase fun _ _ => True).toInductive
      ⟨⟨hkeyed, trivial⟩, fun q phq hq => by cases hq⟩ hrun
      (throughout_of_split fun _ _ _ _ => trivial)
    exact hscheduled
  · have hinit : Recurring w ([] : (jobPlatform τ).History) := by
      refine ⟨fun _ hmem => ?_, List.nodup_nil, fun _ hid => ?_, trivial⟩
      · cases hmem
      · cases hid
    obtain ⟨phases, ⟨-, hrecurring, -⟩, -⟩ := Discipline.sound recurringProtocol_obeyed
      (Discipline.Inductive.and (recurringBase _).toInductive recurring_inductive.toInductive)
      ⟨⟨⟨hkeyed, trivial⟩, fun q phq hq => by cases hq⟩, hinit, fun q phq hq => by cases hq⟩
      hrun hcond
    exact ⟨hrecurring.single, hrecurring.enabled⟩

/-! ### One process, and two of them -/

/-- A host without an authority. -/
def plainHost : JobHost where
  authority := none

/-- A schedule that runs every minute is declared and becomes due. -/
def dueSchedule : List (jobPlatform Nat).Action :=
  .spawn ⟨plainHost, .scheduleRecurring
      { tenantId := some "acme", type := "report", interval := "1m" } (.of ada)⟩ ::
    answering 0 [.proceed, .draw "s", .proceed, .proceed, .draw "a0", .proceed] ++
  [.env (.tick 60000)]

/-- A job was created from a schedule. -/
def hasScheduled (c : (jobPlatform Nat).Config) : Bool := !(jobSources c.past).isEmpty

/-- One process works through the due schedules. -/
def oneRound : List (jobPlatform Nat).Action :=
  dueSchedule ++ .spawn ⟨plainHost, .processRecurringSchedules "acme"⟩ ::
    answering 1 [.proceed, .proceed, .draw "j1", .proceed, .proceed, .draw "a1", .proceed]

theorem scheduled_jobs_are_single_oneRound :
    ∃ c, (jobPlatform Nat).run (Config.init { clock := 0 }) oneRound = some c ∧
      hasScheduled c = true ∧ Throughout CreatesScheduled c.past ∧
      ((jobSources c.past).map fun schedule => (schedule.id, schedule.nextRunAt)).Nodup ∧
      Always createsFromEnabled c.past := by
  obtain ⟨c, hrun, hc⟩ : ∃ c, (jobPlatform Nat).run (Config.init { clock := 0 }) oneRound =
      some c ∧ (hasScheduled c && decide (Always createsFromCurrent c.past)) = true :=
    exists_of_run (by decide +kernel)
  simp only [Bool.and_eq_true, decide_eq_true_eq] at hc
  obtain ⟨hscheduled, hsingle⟩ := scheduled_jobs_are_single rfl hrun
  obtain ⟨hnodup, henabled⟩ := hsingle hc.2
  exact ⟨c, hrun, hc.1, hscheduled, hnodup, henabled⟩

/-- Two processes list the schedule while it is due, and each creates a job from it; in
between it is disabled. -/
def twoRounds : List (jobPlatform Nat).Action :=
  dueSchedule ++
  .spawn ⟨plainHost, .processRecurringSchedules "acme"⟩ :: answering 1 [.proceed, .proceed] ++
  .spawn ⟨plainHost, .processRecurringSchedules "acme"⟩ :: answering 2 [.proceed, .proceed] ++
  answering 1 [.draw "j1", .proceed] ++
  .spawn ⟨plainHost, .disableSchedule "acme" "s" (.of ada)⟩ :: answering 3 [.proceed, .proceed] ++
  answering 2 [.draw "j2", .proceed]

/-- Two jobs for one due time, and the second after the schedule was disabled. -/
theorem twoRounds_create_twice :
    ∃ c, (jobPlatform Nat).run (Config.init { clock := 0 }) twoRounds = some c ∧
      (c.world.jobs.get "j1").isSome = true ∧ (c.world.jobs.get "j2").isSome = true ∧
      ¬ ((jobSources c.past).map fun schedule => (schedule.id, schedule.nextRunAt)).Nodup ∧
      ¬ Always createsFromEnabled c.past := by
  obtain ⟨c, hrun, hc⟩ : ∃ c, (jobPlatform Nat).run (Config.init { clock := 0 }) twoRounds = some c ∧
      ((c.world.jobs.get "j1").isSome && (c.world.jobs.get "j2").isSome &&
        decide (¬ ((jobSources c.past).map fun schedule =>
          (schedule.id, schedule.nextRunAt)).Nodup) &&
        decide (¬ Always createsFromEnabled c.past)) = true := exists_of_run (by decide +kernel)
  simp only [Bool.and_eq_true, decide_eq_true_eq] at hc
  obtain ⟨⟨⟨hfirst, hsecond⟩, hnodup⟩, henabled⟩ := hc
  exact ⟨c, hrun, hfirst, hsecond, hnodup, henabled⟩

end AppPort
