import AppPort.Jobs.Store

/-!
# Conditional writes under a tenant

`FeltDbJobStore.claim` and `updateJob`, and `FeltDbJobScheduleStore.updateSchedule` and
`disable`, for every update their types allow: a whole `Partial<Job>` or
`Partial<JobSchedule>`, the tenant included. The four share one shape, `updateUnder`:
write if the version is the expected one, then compare the tenant of what was written.

The comparison comes after the write, so a refusal of a foreign tenant has changed the
record, and an update that names the tenant makes a foreign record pass it.
-/

namespace AppPort

open Effects

variable {τ α : Type}

/-! ## The shape of the four methods -/

/-- Write under the expected version; hand the result on when it is of the tenant. -/
def updateUnder [Versioned α] (tenantOf : α → String) (records : Table String α)
    (tenantId id : String) (expectedVersion : Nat) (change : α → α) : Option α × Table String α :=
  match records.updateIfVersion id expectedVersion change with
  | (result, records') => (ofTenant tenantOf tenantId result, records')

/-- **What a caller may conclude from the answer.** After `null` nothing has changed, and
a record comes back only if it was of the tenant before the call. -/
structure TenantKept (tenantOf : α → String) (tenantId id : String) (records : Table String α)
    (after : Option α × Table String α) : Prop where
  unchanged : after.1 = none → ∀ k, after.2.get k = records.get k
  belonged : ∀ a, after.1 = some a → ∃ b, records.get id = some b ∧ tenantOf b = tenantId

section shape

variable [Versioned α] {tenantOf : α → String} {records : Table String α} {tenantId id : String}
  {expectedVersion : Nat} {change : α → α}

/-- A write that does not apply changes nothing and answers `null`. -/
theorem updateUnder_stale
    (hstale : ∀ a, records.get id = some a → Versioned.version a ≠ expectedVersion) :
    updateUnder tenantOf records tenantId id expectedVersion change = (none, records) := by
  rcases hwrite : records.updateIfVersion id expectedVersion change with ⟨result, records'⟩
  rcases Table.updateIfVersion_eq hwrite with ⟨a, hget, hversion, -, -⟩ | ⟨hresult, hrecords⟩
  · exact absurd hversion (hstale a hget)
  · simp [updateUnder, hwrite, hresult, hrecords, ofTenant]

/-- A write that applies stores the changed record, whatever the tenant. -/
theorem updateUnder_applied {a : α} (hget : records.get id = some a)
    (hversion : Versioned.version a = expectedVersion) :
    updateUnder tenantOf records tenantId id expectedVersion change =
      (ofTenant tenantOf tenantId (some (Versioned.withVersion (change a) (expectedVersion + 1))),
        records.put id (Versioned.withVersion (change a) (expectedVersion + 1))) := by
  simp [updateUnder, Table.updateIfVersion, hget, hversion]

/-- **When the answer can be relied on.** The comparison after the write agrees with the
record before it exactly if every record the write meets is of the tenant and stays so. -/
theorem updateUnder_kept_iff (hbump : ∀ a n, tenantOf (Versioned.withVersion a n) = tenantOf a) :
    TenantKept tenantOf tenantId id records
        (updateUnder tenantOf records tenantId id expectedVersion change) ↔
      ∀ a, records.get id = some a → Versioned.version a = expectedVersion →
        tenantOf a = tenantId ∧ tenantOf (change a) = tenantId := by
  constructor
  · intro hkept a hget hversion
    rw [updateUnder_applied hget hversion] at hkept
    by_cases hafter : tenantOf (change a) = tenantId
    · have hanswer : ofTenant tenantOf tenantId
          (some (Versioned.withVersion (change a) (expectedVersion + 1))) =
          some (Versioned.withVersion (change a) (expectedVersion + 1)) := by
        simp [ofTenant, Option.filter, hbump, hafter]
      obtain ⟨b, hbefore, htenant⟩ := hkept.belonged _ hanswer
      rw [hget] at hbefore
      cases hbefore
      exact ⟨htenant, hafter⟩
    · -- The answer is `null`, but the record carries the next version.
      have hanswer : ofTenant tenantOf tenantId
          (some (Versioned.withVersion (change a) (expectedVersion + 1))) = none := by
        simp [ofTenant, Option.filter, hbump, hafter]
      have hsame := hkept.unchanged hanswer id
      simp only [Table.get_put_same, hget, Option.some.injEq] at hsame
      have hnext : Versioned.version a = expectedVersion + 1 := by
        rw [← hsame, Versioned.version_withVersion]
      omega
  · intro hall
    by_cases hmeets : ∃ a, records.get id = some a ∧ Versioned.version a = expectedVersion
    · obtain ⟨a, hget, hversion⟩ := hmeets
      obtain ⟨hbefore, hafter⟩ := hall a hget hversion
      rw [updateUnder_applied hget hversion]
      constructor
      · intro hanswer
        simp [ofTenant, Option.filter, hbump, hafter] at hanswer
      · intro _ _
        exact ⟨a, hget, hbefore⟩
    · rw [updateUnder_stale (fun a hget hversion => hmeets ⟨a, hget, hversion⟩)]
      constructor
      · intro _ k
        rfl
      · intro a hanswer
        cases hanswer

end shape

/-! ## The updates -/

/-- `Partial<Job>`, whole. -/
structure JobPatch (τ : Type) extends JobUpdate τ where
  id : Option String := none
  tenantId : Option String := none
  applicationId : Option (Option String) := none
  type : Option String := none
  payload : Option JsValue := none
  runAt : Option τ := none
  maxAttempts : Option Int := none
  createdAt : Option τ := none
  leaseOwner : Option (Option String) := none
  principal : Option (Option DurablePrincipal) := none

/-- The merge of an update into a record; the version is the database's own. -/
def JobPatch.merge (u : JobPatch τ) (j : Job τ) : Job τ :=
  { u.toJobUpdate.apply j with
    id := u.id.getD j.id
    tenantId := u.tenantId.getD j.tenantId
    applicationId := u.applicationId.getD j.applicationId
    type := u.type.getD j.type
    payload := u.payload.getD j.payload
    runAt := u.runAt.getD j.runAt
    maxAttempts := u.maxAttempts.getD j.maxAttempts
    createdAt := u.createdAt.getD j.createdAt
    leaseOwner := u.leaseOwner.getD j.leaseOwner
    principal := u.principal.getD j.principal }

@[simp] theorem JobPatch.merge_tenantId (u : JobPatch τ) (j : Job τ) :
    (u.merge j).tenantId = u.tenantId.getD j.tenantId := rfl

/-- `Partial<JobSchedule>`, whole. -/
structure SchedulePatch (τ : Type) extends ScheduleUpdate τ where
  id : Option String := none
  tenantId : Option String := none
  applicationId : Option (Option String) := none
  type : Option String := none
  payload : Option JsValue := none
  interval : Option String := none
  createdAt : Option τ := none
  createdBy : Option String := none
  principal : Option (Option DurablePrincipal) := none

/-- The merge of an update into a schedule. -/
def SchedulePatch.merge (u : SchedulePatch τ) (s : JobSchedule τ) : JobSchedule τ :=
  { u.toScheduleUpdate.apply s with
    id := u.id.getD s.id
    tenantId := u.tenantId.getD s.tenantId
    applicationId := u.applicationId.getD s.applicationId
    type := u.type.getD s.type
    payload := u.payload.getD s.payload
    interval := u.interval.getD s.interval
    createdAt := u.createdAt.getD s.createdAt
    createdBy := u.createdBy.getD s.createdBy
    principal := u.principal.getD s.principal }

@[simp] theorem SchedulePatch.merge_tenantId (u : SchedulePatch τ) (s : JobSchedule τ) :
    (u.merge s).tenantId = u.tenantId.getD s.tenantId := rfl

/-! ## The four methods -/

/-- `FeltDbJobStore.claim`; `now` is the store's own clock. -/
def FeltDbJobStore.claim (now : τ) (jobs : Table String (Job τ)) (tenantId jobId : String)
    (expectedVersion : Nat) (leaseExpiresAt : τ) : Option (Job τ) × Table String (Job τ) :=
  updateUnder Job.tenantId jobs tenantId jobId expectedVersion
    (claimUpdate now leaseExpiresAt).apply

/-- `FeltDbJobStore.updateJob`. -/
def FeltDbJobStore.updateJob (jobs : Table String (Job τ)) (tenantId jobId : String)
    (expectedVersion : Nat) (updates : JobPatch τ) : Option (Job τ) × Table String (Job τ) :=
  updateUnder Job.tenantId jobs tenantId jobId expectedVersion updates.merge

/-- `FeltDbJobScheduleStore.updateSchedule`. -/
def FeltDbJobScheduleStore.updateSchedule (schedules : Table String (JobSchedule τ))
    (tenantId scheduleId : String) (expectedVersion : Nat) (updates : SchedulePatch τ) :
    Option (JobSchedule τ) × Table String (JobSchedule τ) :=
  updateUnder JobSchedule.tenantId schedules tenantId scheduleId expectedVersion updates.merge

/-- `FeltDbJobScheduleStore.disable`. -/
def FeltDbJobScheduleStore.disable (schedules : Table String (JobSchedule τ))
    (tenantId scheduleId : String) (expectedVersion : Nat) : Option (JobSchedule τ) × Table String (JobSchedule τ) :=
  FeltDbJobScheduleStore.updateSchedule schedules tenantId scheduleId expectedVersion
    { enabled := some false }

/-- The calls the job service makes are these methods. -/
theorem exec_claim_eq [Timestamp τ] (now : τ) (jobs : Table String (Job τ))
    (tenantId jobId : String) (v : Nat) (lease : τ) :
    (JobOp.claim tenantId jobId v lease).exec now jobs =
      (.ok (FeltDbJobStore.claim now jobs tenantId jobId v lease).1,
        (FeltDbJobStore.claim now jobs tenantId jobId v lease).2) := rfl

theorem exec_updateJob_eq [Timestamp τ] (now : τ) (jobs : Table String (Job τ))
    (tenantId jobId : String) (v : Nat) (u : JobUpdate τ) :
    (JobOp.updateJob tenantId jobId v u).exec now jobs =
      (.ok (FeltDbJobStore.updateJob jobs tenantId jobId v { u with }).1,
        (FeltDbJobStore.updateJob jobs tenantId jobId v { u with }).2) := rfl

theorem exec_updateSchedule_eq [Timestamp τ] (schedules : Table String (JobSchedule τ))
    (tenantId scheduleId : String) (v : Nat) (u : ScheduleUpdate τ) :
    (ScheduleOp.updateSchedule tenantId scheduleId v u).exec schedules =
      (.ok (FeltDbJobScheduleStore.updateSchedule schedules tenantId scheduleId v { u with }).1,
        (FeltDbJobScheduleStore.updateSchedule schedules tenantId scheduleId v { u with }).2) := rfl

/-- The record the write meets, if there is one, is of the tenant. -/
def MeetsTenant [Versioned α] (tenantOf : α → String) (records : Table String α)
    (tenantId id : String) (expectedVersion : Nat) : Prop :=
  ∀ a, records.get id = some a → Versioned.version a = expectedVersion → tenantOf a = tenantId

/-- The update leaves the tenant alone, or names it. -/
def NamesNoOther (named : Option String) (tenantId : String) : Prop :=
  ∀ t, named = some t → t = tenantId

/-- A merge that may name a tenant: kept exactly if a record that is met is of the tenant
and the update names no other. -/
theorem merged_kept_iff [Versioned α] {tenantOf : α → String} {records : Table String α}
    {tenantId id : String} {expectedVersion : Nat} {change : α → α} {named : Option String}
    (hbump : ∀ a n, tenantOf (Versioned.withVersion a n) = tenantOf a)
    (hchange : ∀ a, tenantOf (change a) = named.getD (tenantOf a)) :
    TenantKept tenantOf tenantId id records
        (updateUnder tenantOf records tenantId id expectedVersion change) ↔
      (∀ a, records.get id = some a → Versioned.version a = expectedVersion →
        tenantOf a = tenantId ∧ NamesNoOther named tenantId) := by
  rw [updateUnder_kept_iff hbump]
  apply forall_congr'
  intro a
  rw [hchange]
  cases named with
  | none => simp [NamesNoOther]
  | some t => simp [NamesNoOther]

/-- **The answers of the four conditional writes.** `claim` and `disable` can be relied on
exactly when the record they meet is of the tenant; `updateJob` and `updateSchedule` need
besides that the update names no other tenant. Each condition is void when no record is
stored under the id with the expected version. -/
theorem conditional_writes_kept_iff (now leaseExpiresAt : τ) (jobs : Table String (Job τ))
    (schedules : Table String (JobSchedule τ)) (tenantId id : String) (expectedVersion : Nat)
    (updates : JobPatch τ) (changes : SchedulePatch τ) :
    (TenantKept Job.tenantId tenantId id jobs
        (FeltDbJobStore.claim now jobs tenantId id expectedVersion leaseExpiresAt) ↔
      MeetsTenant Job.tenantId jobs tenantId id expectedVersion) ∧
    (TenantKept Job.tenantId tenantId id jobs
        (FeltDbJobStore.updateJob jobs tenantId id expectedVersion updates) ↔
      ∀ job, jobs.get id = some job → job.version = expectedVersion →
        job.tenantId = tenantId ∧ NamesNoOther updates.tenantId tenantId) ∧
    (TenantKept JobSchedule.tenantId tenantId id schedules
        (FeltDbJobScheduleStore.updateSchedule schedules tenantId id expectedVersion changes) ↔
      ∀ schedule, schedules.get id = some schedule → schedule.version = expectedVersion →
        schedule.tenantId = tenantId ∧ NamesNoOther changes.tenantId tenantId) ∧
    (TenantKept JobSchedule.tenantId tenantId id schedules
        (FeltDbJobScheduleStore.disable schedules tenantId id expectedVersion) ↔
      MeetsTenant JobSchedule.tenantId schedules tenantId id expectedVersion) := by
  have hjob : ∀ (j : Job τ) n, (Versioned.withVersion j n).tenantId = j.tenantId := fun _ _ => rfl
  have hschedule : ∀ (s : JobSchedule τ) n,
      (Versioned.withVersion s n).tenantId = s.tenantId := fun _ _ => rfl
  constructor
  · have hclaim : ∀ job, ((claimUpdate now leaseExpiresAt).apply job).tenantId =
        (none : Option String).getD job.tenantId := fun _ => rfl
    rw [FeltDbJobStore.claim, merged_kept_iff hjob hclaim]
    simp [MeetsTenant, NamesNoOther]
  constructor
  · exact merged_kept_iff hjob updates.merge_tenantId
  constructor
  · exact merged_kept_iff hschedule changes.merge_tenantId
  · rw [FeltDbJobScheduleStore.disable, FeltDbJobScheduleStore.updateSchedule,
      merged_kept_iff hschedule (SchedulePatch.merge_tenantId { enabled := some false })]
    simp [MeetsTenant, NamesNoOther]

/-- A job of tenant `acme`, alone in its store. -/
def acmeJob : Job Nat :=
  { id := "j", tenantId := "acme", type := "report", status := .pending, runAt := 0,
    attemptCount := 0, maxAttempts := 3, createdAt := 0 }

def acmeJobs : Table String (Job Nat) := Table.empty.put "j" acmeJob

/-- Under tenant `other`, `claim` answers `null` and has started the job of `acme`; an
update that carries the tenant hands the job of `acme` out. -/
theorem claim_starts_foreign_job :
    (FeltDbJobStore.claim 5 acmeJobs "other" "j" 1 9).1 = none ∧
      ((FeltDbJobStore.claim 5 acmeJobs "other" "j" 1 9).2.get "j").map Job.status = some .running ∧
      ((FeltDbJobStore.updateJob acmeJobs "other" "j" 1 { tenantId := some "other" }).1).isSome =
        true ∧
      ¬ TenantKept Job.tenantId "other" "j" acmeJobs
        (FeltDbJobStore.claim 5 acmeJobs "other" "j" 1 9) ∧
      ¬ TenantKept Job.tenantId "other" "j" acmeJobs
        (FeltDbJobStore.updateJob acmeJobs "other" "j" 1 { tenantId := some "other" }) := by
  have hanswer : (FeltDbJobStore.claim 5 acmeJobs "other" "j" 1 9).1 = none := by decide
  have hstatus : ((FeltDbJobStore.claim 5 acmeJobs "other" "j" 1 9).2.get "j").map Job.status =
      some .running := by decide
  have hupdated : ((FeltDbJobStore.updateJob acmeJobs "other" "j" 1
      { tenantId := some "other" }).1).isSome = true := by decide
  have hstored : acmeJobs.get "j" = some acmeJob := Table.get_put_same ..
  apply And.intro hanswer
  apply And.intro hstatus
  apply And.intro hupdated
  constructor
  · intro hkept
    rw [hkept.unchanged hanswer "j", hstored] at hstatus
    exact absurd hstatus (by decide)
  · intro hkept
    obtain ⟨job, hjob⟩ := Option.isSome_iff_exists.mp hupdated
    obtain ⟨before, hget, htenant⟩ := hkept.belonged job hjob
    rw [hstored] at hget
    cases hget
    exact absurd htenant (by decide)

end AppPort
