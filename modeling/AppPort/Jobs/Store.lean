import AppPort.Authority.Context

/-!
# Jobs and their store

The records of the job service and `FeltDbJobStore` / `FeltDbJobScheduleStore`,
method by method, over versioned tables. Each method awaits the database once, so
each is one atomic call; what it does with the answer is part of the call.

`claim` and `updateJob` write first and compare the tenant of the result after:
a call under the wrong tenant answers `null` although the record has changed.
-/

namespace AppPort

open Effects

variable {τ : Type}

inductive JobStatus where
  | scheduled
  | pending
  | running
  | retrying
  | completed
  | failed
  deriving DecidableEq, Repr

structure Job (τ : Type) where
  id : String
  tenantId : String
  applicationId : Option String := none
  type : String
  payload : JsValue := .undefined
  status : JobStatus
  runAt : τ
  attemptCount : Nat
  maxAttempts : Int
  createdAt : τ
  startedAt : Option τ := none
  completedAt : Option τ := none
  nextAttemptAt : Option τ := none
  leaseOwner : Option String := none
  leaseExpiresAt : Option τ := none
  lastError : Option String := none
  principal : Option DurablePrincipal := none
  /-- `__version`. -/
  version : Nat := 1

structure JobSchedule (τ : Type) where
  id : String
  tenantId : String
  applicationId : Option String := none
  type : String
  payload : JsValue := .undefined
  interval : String
  nextRunAt : τ
  enabled : Bool
  createdAt : τ
  createdBy : String
  principal : Option DurablePrincipal := none
  /-- `__version`. -/
  version : Nat := 1

structure JobAuditEvent (τ : Type) where
  id : String
  type : String
  jobId : Option String := none
  scheduleId : Option String := none
  tenantId : String
  principalId : String
  timestamp : τ
  success : Bool
  details : List (String × String) := []

instance : Versioned (Job τ) where
  version j := j.version
  withVersion j v := { j with version := v }
  version_withVersion _ _ := rfl

instance : Versioned (JobSchedule τ) where
  version s := s.version
  withVersion s v := { s with version := v }
  version_withVersion _ _ := rfl

@[simp] theorem version_job (j : Job τ) : Versioned.version j = j.version := rfl

@[simp] theorem withVersion_job (j : Job τ) (v : Nat) :
    Versioned.withVersion j v = { j with version := v } := rfl

@[simp] theorem version_schedule (s : JobSchedule τ) : Versioned.version s = s.version := rfl

@[simp] theorem withVersion_schedule (s : JobSchedule τ) (v : Nat) :
    Versioned.withVersion s v = { s with version := v } := rfl

/-- `Partial<Job>` as the job service writes it: `none` leaves a field alone,
`some none` writes `undefined` into an optional one. -/
structure JobUpdate (τ : Type) where
  status : Option JobStatus := none
  attemptCount : Option Nat := none
  nextAttemptAt : Option (Option τ) := none
  lastError : Option (Option String) := none
  completedAt : Option (Option τ) := none
  startedAt : Option (Option τ) := none
  leaseExpiresAt : Option (Option τ) := none

/-- The merge of an update into a record. -/
def JobUpdate.apply (u : JobUpdate τ) (j : Job τ) : Job τ :=
  { j with
    status := u.status.getD j.status
    attemptCount := u.attemptCount.getD j.attemptCount
    nextAttemptAt := u.nextAttemptAt.getD j.nextAttemptAt
    lastError := u.lastError.getD j.lastError
    completedAt := u.completedAt.getD j.completedAt
    startedAt := u.startedAt.getD j.startedAt
    leaseExpiresAt := u.leaseExpiresAt.getD j.leaseExpiresAt }

/-- `Partial<JobSchedule>` as the job service writes it. -/
structure ScheduleUpdate (τ : Type) where
  nextRunAt : Option τ := none
  enabled : Option Bool := none

/-- The merge of an update into a schedule. -/
def ScheduleUpdate.apply (u : ScheduleUpdate τ) (s : JobSchedule τ) : JobSchedule τ :=
  { s with
    nextRunAt := u.nextRunAt.getD s.nextRunAt
    enabled := u.enabled.getD s.enabled }

section due

variable [Timestamp τ]

/-- The filter of `FeltDbJobStore.listDue`. -/
def isDue (now : τ) (job : Job τ) : Bool :=
  match job.status with
  | .pending | .scheduled => job.runAt ≤ now
  | .retrying => job.nextAttemptAt.any (fun t => t ≤ now)
  | .running => job.leaseExpiresAt.any (fun t => t ≤ now)
  | .completed | .failed => false

/-- The filter of `FeltDbJobScheduleStore.listDue`, on an enabled schedule. -/
def isDueSchedule (now : τ) (s : JobSchedule τ) : Bool :=
  s.enabled && decide (s.nextRunAt ≤ now)

/-- What is due stays due: the clock only moves forward. -/
theorem isDue_mono {now now' : τ} {job : Job τ} (h : isDue now job = true) (hle : now ≤ now') :
    isDue now' job = true := by
  unfold isDue at *
  cases hs : job.status <;> simp only [hs] at h ⊢
  case scheduled => exact decide_eq_true ((of_decide_eq_true h).trans hle)
  case pending => exact decide_eq_true ((of_decide_eq_true h).trans hle)
  case running =>
    cases hl : job.leaseExpiresAt with
    | none => simp [hl] at h
    | some t =>
      simp only [hl, Option.any_some, decide_eq_true_eq] at h ⊢
      exact h.trans hle
  case retrying =>
    cases hl : job.nextAttemptAt with
    | none => simp [hl] at h
    | some t =>
      simp only [hl, Option.any_some, decide_eq_true_eq] at h ⊢
      exact h.trans hle
  all_goals cases h

end due

/-! ## The calls of the two stores -/

/-- The methods of `JobStore`. -/
inductive JobOp (τ : Type) where
  | create (job : Job τ)
  | get (tenantId id : String)
  | list (tenantId : String)
  | listByStatus (tenantId : String) (status : JobStatus)
  | listDue (tenantId : String) (now : τ)
  | claim (tenantId jobId : String) (expectedVersion : Nat) (leaseExpiresAt : τ)
  | updateJob (tenantId jobId : String) (expectedVersion : Nat) (updates : JobUpdate τ)

/-- What they answer with. -/
@[reducible] def JobOp.Out (τ : Type) : JobOp τ → Type
  | .create _ => Unit
  | .get _ _ | .claim _ _ _ _ | .updateJob _ _ _ _ => Option (Job τ)
  | .list _ | .listByStatus _ _ | .listDue _ _ => List (Job τ)

/-- The methods of `JobScheduleStore`. -/
inductive ScheduleOp (τ : Type) where
  | create (schedule : JobSchedule τ)
  | get (tenantId id : String)
  | list (tenantId : String)
  | listDue (tenantId : String) (now : τ)
  | updateSchedule (tenantId scheduleId : String) (expectedVersion : Nat) (updates : ScheduleUpdate τ)

/-- What they answer with. -/
@[reducible] def ScheduleOp.Out (τ : Type) : ScheduleOp τ → Type
  | .create _ => Unit
  | .get _ _ | .updateSchedule _ _ _ _ => Option (JobSchedule τ)
  | .list _ | .listDue _ _ => List (JobSchedule τ)

/-- The update `claim` writes. -/
def claimUpdate (now leaseExpiresAt : τ) : JobUpdate τ :=
  { status := some .running, leaseExpiresAt := some (some leaseExpiresAt), startedAt := some (some now) }

/-- The result of a conditional write, as the stores hand it on: only when it
belongs to the tenant. -/
def ofTenant {α : Type} (tenantOf : α → String) (tenantId : String) (r : Option α) : Option α :=
  r.filter (fun a => tenantOf a == tenantId)

/-- `JobStore` over a table: the answer and the table after. `now` is the store's
own clock, which `claim` stamps into `startedAt`. -/
def JobOp.exec [Timestamp τ] (now : τ) (jobs : Table String (Job τ)) :
    (op : JobOp τ) → Except JsError (op.Out τ) × Table String (Job τ)
  | .create job =>
    match jobs.insertAbsent job.id job with
    | some jobs' => (.ok (), jobs')
    | none => (.error absentError, jobs)
  | .get tenantId id => (.ok ((jobs.get id).filter (fun j => j.tenantId == tenantId)), jobs)
  | .list tenantId => (.ok (jobs.find (fun j => j.tenantId == tenantId)), jobs)
  | .listByStatus tenantId status =>
    (.ok (jobs.find (fun j => j.tenantId == tenantId && j.status == status)), jobs)
  | .listDue tenantId t =>
    (.ok ((jobs.find (fun j => j.tenantId == tenantId)).filter (isDue t)), jobs)
  | .claim tenantId jobId expectedVersion leaseExpiresAt =>
    match jobs.updateIfVersion jobId expectedVersion (claimUpdate now leaseExpiresAt).apply with
    | (r, jobs') => (.ok (ofTenant Job.tenantId tenantId r), jobs')
  | .updateJob tenantId jobId expectedVersion updates =>
    match jobs.updateIfVersion jobId expectedVersion updates.apply with
    | (r, jobs') => (.ok (ofTenant Job.tenantId tenantId r), jobs')

/-- `JobScheduleStore` over a table. -/
def ScheduleOp.exec [Timestamp τ] (schedules : Table String (JobSchedule τ)) :
    (op : ScheduleOp τ) → Except JsError (op.Out τ) × Table String (JobSchedule τ)
  | .create schedule =>
    match schedules.insertAbsent schedule.id schedule with
    | some schedules' => (.ok (), schedules')
    | none => (.error absentError, schedules)
  | .get tenantId id =>
    (.ok ((schedules.get id).filter (fun s => s.tenantId == tenantId)), schedules)
  | .list tenantId => (.ok (schedules.find (fun s => s.tenantId == tenantId)), schedules)
  | .listDue tenantId t =>
    (.ok (schedules.find (fun s => s.tenantId == tenantId && isDueSchedule t s)), schedules)
  | .updateSchedule tenantId scheduleId expectedVersion updates =>
    match schedules.updateIfVersion scheduleId expectedVersion updates.apply with
    | (r, schedules') => (.ok (ofTenant JobSchedule.tenantId tenantId r), schedules')

/-! ## What a call of the job store does to the records -/

/-- The record a successful conditional write leaves behind. -/
def JobUpdate.written (u : JobUpdate τ) (j : Job τ) : Job τ :=
  { u.apply j with version := j.version + 1 }

/-- What no update writes: two states of one job. -/
structure SameJob (a b : Job τ) : Prop where
  id : a.id = b.id
  tenantId : a.tenantId = b.tenantId
  applicationId : a.applicationId = b.applicationId
  type : a.type = b.type
  payload : a.payload = b.payload
  maxAttempts : a.maxAttempts = b.maxAttempts
  leaseOwner : a.leaseOwner = b.leaseOwner

theorem SameJob.refl (a : Job τ) : SameJob a a := ⟨rfl, rfl, rfl, rfl, rfl, rfl, rfl⟩

theorem SameJob.trans {a b c : Job τ} (h : SameJob a b) (h' : SameJob b c) : SameJob a c :=
  ⟨h.id.trans h'.id, h.tenantId.trans h'.tenantId, h.applicationId.trans h'.applicationId,
    h.type.trans h'.type, h.payload.trans h'.payload, h.maxAttempts.trans h'.maxAttempts,
    h.leaseOwner.trans h'.leaseOwner⟩

theorem SameJob.symm {a b : Job τ} (h : SameJob a b) : SameJob b a :=
  ⟨h.id.symm, h.tenantId.symm, h.applicationId.symm, h.type.symm, h.payload.symm,
    h.maxAttempts.symm, h.leaseOwner.symm⟩

theorem JobUpdate.written_same (u : JobUpdate τ) (j : Job τ) : SameJob (u.written j) j :=
  ⟨rfl, rfl, rfl, rfl, rfl, rfl, rfl⟩

section written

variable (u : JobUpdate τ) (j : Job τ)

@[simp] theorem written_id : (u.written j).id = j.id := rfl

@[simp] theorem written_leaseOwner : (u.written j).leaseOwner = j.leaseOwner := rfl

@[simp] theorem written_maxAttempts : (u.written j).maxAttempts = j.maxAttempts := rfl

@[simp] theorem written_version : (u.written j).version = j.version + 1 := rfl

@[simp] theorem written_status : (u.written j).status = u.status.getD j.status := rfl

@[simp] theorem written_attemptCount :
    (u.written j).attemptCount = u.attemptCount.getD j.attemptCount := rfl

@[simp] theorem written_leaseExpiresAt :
    (u.written j).leaseExpiresAt = u.leaseExpiresAt.getD j.leaseExpiresAt := rfl

end written

/-- The schedule a successful conditional write leaves behind. -/
def ScheduleUpdate.written (u : ScheduleUpdate τ) (s : JobSchedule τ) : JobSchedule τ :=
  { u.apply s with version := s.version + 1 }

/-- What no update writes: two states of one schedule. -/
structure SameSchedule (a b : JobSchedule τ) : Prop where
  id : a.id = b.id
  tenantId : a.tenantId = b.tenantId
  applicationId : a.applicationId = b.applicationId
  type : a.type = b.type
  payload : a.payload = b.payload

theorem SameSchedule.refl (a : JobSchedule τ) : SameSchedule a a := ⟨rfl, rfl, rfl, rfl, rfl⟩

theorem SameSchedule.trans {a b c : JobSchedule τ} (h : SameSchedule a b) (h' : SameSchedule b c) :
    SameSchedule a c :=
  ⟨h.id.trans h'.id, h.tenantId.trans h'.tenantId, h.applicationId.trans h'.applicationId,
    h.type.trans h'.type, h.payload.trans h'.payload⟩

theorem ScheduleUpdate.written_same (u : ScheduleUpdate τ) (s : JobSchedule τ) :
    SameSchedule (u.written s) s := ⟨rfl, rfl, rfl, rfl, rfl⟩

/-- **What one call of the job store can do to its table.** A new record, one merged
record with its version bumped, or nothing. -/
inductive JobWrite (now : τ) (op : JobOp τ) (jobs jobs' : Table String (Job τ)) : Prop where
  | created (job : Job τ) (hop : op = .create job) (habsent : jobs.get job.id = none)
      (hput : jobs' = jobs.put job.id job)
  | merged (id : String) (u : JobUpdate τ) (job : Job τ)
      (hop : (∃ tenantId, op = .updateJob tenantId id job.version u) ∨
        ∃ tenantId lease, op = .claim tenantId id job.version lease ∧ u = claimUpdate now lease)
      (hget : jobs.get id = some job) (hput : jobs' = jobs.put id (u.written job))
  | none (hsame : jobs' = jobs)

theorem JobOp.exec_write [Timestamp τ] {now : τ} {jobs jobs' : Table String (Job τ)} {op : JobOp τ}
    {r : Except JsError (op.Out τ)} (h : op.exec now jobs = (r, jobs')) : JobWrite now op jobs jobs' := by
  cases op with
  | create job =>
    simp only [JobOp.exec] at h
    split at h
    · next t ht =>
      obtain ⟨habs, rfl⟩ := Table.insertAbsent_eq_some ht
      cases h
      exact .created job rfl habs rfl
    · cases h
      exact .none rfl
  | claim tenantId jobId v lease =>
    simp only [JobOp.exec] at h
    rcases hu : jobs.updateIfVersion jobId v (claimUpdate now lease).apply with ⟨r', t⟩
    rw [hu] at h
    cases h
    rcases Table.updateIfVersion_eq hu with ⟨j, hj, rfl, -, rfl⟩ | ⟨-, rfl⟩
    · exact .merged jobId (claimUpdate now lease) j (.inr ⟨tenantId, lease, rfl, rfl⟩) hj rfl
    · exact .none rfl
  | updateJob tenantId jobId v u =>
    simp only [JobOp.exec] at h
    rcases hu : jobs.updateIfVersion jobId v u.apply with ⟨r', t⟩
    rw [hu] at h
    cases h
    rcases Table.updateIfVersion_eq hu with ⟨j, hj, rfl, -, rfl⟩ | ⟨-, rfl⟩
    · exact .merged jobId u j (.inl ⟨tenantId, rfl⟩) hj rfl
    · exact .none rfl
  | get | list | listByStatus | listDue => exact .none (by cases h; rfl)

/-- Every call of the store moves the table along the fence. -/
theorem JobOp.exec_fence [Timestamp τ] {now : τ} {jobs jobs' : Table String (Job τ)} {op : JobOp τ}
    {r : Except JsError (op.Out τ)} (h : op.exec now jobs = (r, jobs')) : jobs.Fence jobs' := by
  cases op with
  | create job =>
    simp only [JobOp.exec] at h
    split at h
    · next t ht =>
      cases h
      exact Table.fence_insertAbsent ht
    · cases h
      exact Table.Fence.refl _
  | claim tenantId jobId v lease =>
    simp only [JobOp.exec] at h
    rcases hu : jobs.updateIfVersion jobId v (claimUpdate now lease).apply with ⟨r', t⟩
    rw [hu] at h
    cases h
    exact Table.fence_updateIfVersion hu
  | updateJob tenantId jobId v u =>
    simp only [JobOp.exec] at h
    rcases hu : jobs.updateIfVersion jobId v u.apply with ⟨r', t⟩
    rw [hu] at h
    cases h
    exact Table.fence_updateIfVersion hu
  | get | list | listByStatus | listDue =>
    cases h
    exact Table.Fence.refl _

/-- What one call of the schedule store can do to its table. -/
inductive ScheduleWrite (op : ScheduleOp τ) (schedules schedules' : Table String (JobSchedule τ)) :
    Prop where
  | created (schedule : JobSchedule τ) (hop : op = .create schedule)
      (habsent : schedules.get schedule.id = none)
      (hput : schedules' = schedules.put schedule.id schedule)
  | merged (id tenantId : String) (u : ScheduleUpdate τ) (schedule : JobSchedule τ)
      (hop : op = .updateSchedule tenantId id schedule.version u)
      (hget : schedules.get id = some schedule)
      (hput : schedules' = schedules.put id (u.written schedule))
  | none (hsame : schedules' = schedules)

theorem ScheduleOp.exec_write [Timestamp τ] {schedules schedules' : Table String (JobSchedule τ)}
    {op : ScheduleOp τ} {r : Except JsError (op.Out τ)} (h : op.exec schedules = (r, schedules')) :
    ScheduleWrite op schedules schedules' := by
  cases op with
  | create schedule =>
    simp only [ScheduleOp.exec] at h
    split at h
    · next t ht =>
      obtain ⟨habsent, rfl⟩ := Table.insertAbsent_eq_some ht
      cases h
      exact .created schedule rfl habsent rfl
    · cases h
      exact .none rfl
  | updateSchedule tenantId id v u =>
    simp only [ScheduleOp.exec] at h
    rcases hu : schedules.updateIfVersion id v u.apply with ⟨r', t⟩
    rw [hu] at h
    cases h
    rcases Table.updateIfVersion_eq hu with ⟨s, hs, rfl, -, rfl⟩ | ⟨-, rfl⟩
    · exact .merged id tenantId u s rfl hs rfl
    · exact .none rfl
  | get | list | listDue => exact .none (by cases h; rfl)

end AppPort
