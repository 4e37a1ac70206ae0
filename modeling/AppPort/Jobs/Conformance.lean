import AppPort.Jobs.Footprint
import AppPort.Jobs.Protocol

/-!
# The job service follows the job protocol

Function by function: the calls each one can make, from the phase it is entered in,
are steps of the protocol. Everything that only creates records, or writes none, is
steady: it is shown by the calls it uses. What is left is `executeJob`, its
settlements, and `retry`.
-/

namespace AppPort

open Effects Effects.Platform

variable {τ : Type} [Timestamp τ]

/-! ## Steady calls -/

/-- Calls that leave every phase as it is: the quiet ones, and those that create
fresh records. -/
def steadyCalls : Set (AppOp τ) := {op | op.isQuiet = true ∨
  ((∃ job, op = .jobs (.create job)) ∨ ∃ ops, op = .commit ops) ∧ ∀ job ∈ op.newJobs, Fresh job}

omit [Timestamp τ] in
theorem authority_steady : (authorityCalls : Set (AppOp τ)) ⊆ steadyCalls := by
  rintro op ⟨o, rfl⟩
  exact .inl rfl

theorem steady_idle (call : JobCall τ) (ph : JobPhase τ) :
    steadyCalls ⊆ (jobProtocol τ).Idle call ph := by
  intro op hop choice before res after _
  rcases hop with hquiet | ⟨hcreate, hfresh⟩
  · exact .quiet hquiet
  · exact .create hcreate hfresh

theorem authority_idle (call : JobCall τ) (ph : JobPhase τ) :
    authorityCalls ⊆ (jobProtocol τ).Idle call ph :=
  authority_steady.trans (steady_idle call ph)

section uses

omit [Timestamp τ]

/-- A quiet call. -/
theorem uses_quiet {op : AppOp τ} (h : op.isQuiet = true) :
    Task.Uses (S := services τ) steadyCalls (Task.perform op) :=
  Task.uses_perform (.inl h)

theorem uses_authority {α : Type} {t : Svc τ α} (h : Task.Uses (S := services τ) authorityCalls t) :
    Task.Uses (S := services τ) steadyCalls t := h.mono authority_steady

theorem uses_discard {α : Type} {calls : Set (AppOp τ)} {t : Svc τ α}
    (h : Task.Uses (S := services τ) calls t) : Task.Uses (S := services τ) calls (discard t) :=
  h.bind fun _ => trivial

end uses

/-! ## Creation -/

namespace JobService

theorem fresh_jobRecord (service : JobService τ) (input : CreateJobInput τ) (id : String) (t : τ)
    (applicationId : Option String) (principal : Option VerifiedPrincipal)
    (authorizedBy : Option String) :
    Fresh (service.jobRecord input id t applicationId principal authorizedBy) := by
  refine ⟨?_, rfl, rfl⟩
  unfold jobRecord
  by_cases h : input.runAt.getD t ≤ t
  · exact .inl (if_pos h)
  · exact .inr (if_neg h)

omit [Timestamp τ] in
theorem fresh_scheduledJob (schedule : JobSchedule τ) (id : String) (t : τ) :
    Fresh (scheduledJob schedule id t) := ⟨.inl rfl, rfl, rfl⟩

end JobService

omit [Timestamp τ] in
theorem create_steady {job : Job τ} (h : Fresh job) : AppOp.jobs (.create job) ∈ steadyCalls := by
  refine .inr ⟨.inl ⟨job, rfl⟩, ?_⟩
  intro job' hmem
  obtain rfl := List.mem_singleton.mp hmem
  exact h

omit [Timestamp τ] in
/-- What creation makes besides authority calls and the record itself is quiet. -/
theorem steady_ambient : Ambient (steadyCalls : Set (AppOp τ)) :=
  ⟨authority_steady, fun _ => .inl rfl, fun _ _ => .inl rfl⟩

theorem fresh_queuedJob (input : QueueJobInput τ) (context : ServiceExecutionContext τ)
    (delegationId : Option String) (id : String) (t : τ) :
    Fresh (queuedJob input context delegationId id t) := by
  refine ⟨?_, rfl, rfl⟩
  unfold queuedJob
  by_cases h : input.runAt.getD t ≤ t
  · exact .inl (if_pos h)
  · exact .inr (if_neg h)

theorem uses_steady_transaction (gateway : Option ServiceGateway)
    (calls : List (TransactionCall τ × Bool)) :
    Task.Uses (S := services τ) steadyCalls (transaction gateway calls) := by
  refine uses_transaction authority_steady (fun _ => .inl rfl) gateway calls fun ops hops => ?_
  refine .inr ⟨.inr ⟨ops, rfl⟩, fun job hjob => ?_⟩
  obtain ⟨op, hop, heq⟩ := List.mem_filterMap.mp hjob
  cases op with
  | job job' =>
    obtain rfl := Option.some.inj heq
    obtain ⟨input, context, -, -, delegationId, id, t, rfl⟩ := hops _ hop
    exact fresh_queuedJob ..
  | evidence | jobAudit | delivery | webhookAudit | notification | notificationDelivery
  | notificationAudit => cases heq

/-! ## Settling a run -/

section conformance

variable {call : JobCall τ} {ph : JobPhase τ} {α : Type}

/-- A steady task ends in the phase it was entered in. -/
theorem conforms_steady {t : Svc τ α} (ht : Task.Uses (S := services τ) steadyCalls t) :
    (jobProtocol τ).Conforms call t ph (fun _ ph' => ph' = ph) :=
  Discipline.Conforms.of_idle (ht.mono (steady_idle call ph))

/-- What follows the last write of a run. -/
theorem conforms_rest {t : Svc τ α} (ht : Task.Uses (S := services τ) steadyCalls t) :
    (jobProtocol τ).Conforms call t ph (fun _ _ => True) :=
  Discipline.Conforms.mono (fun _ _ _ => trivial) (conforms_steady ht)

/-- Steady calls, and then a task from the same phase. -/
theorem conforms_steady_bind {β : Type} {t : Svc τ α} {f : α → Svc τ β}
    {Q : Except JsError β → JobPhase τ → Prop}
    (ht : Task.Uses (S := services τ) steadyCalls t) (herr : ∀ e, Q (.error e) ph)
    (hf : ∀ a, (jobProtocol τ).Conforms call (f a) ph Q) :
    (jobProtocol τ).Conforms call (t.bind f) ph Q := by
  refine Discipline.Conforms.bind (conforms_steady ht) ?_ ?_
  · intro a ph' hph
    subst hph
    exact hf a
  · intro e ph' hph
    subst hph
    exact herr e

/-- The last write of a run, and steady calls after it. -/
theorem conforms_write {op : JobOp τ} {f : op.Out τ → Svc τ α}
    (hstep : ∀ choice before res after, AppOp.exec (.jobs op) choice before = some (res, after) →
      ∃ ph', JobStep ph ⟨call, .jobs op, res, before, after⟩ ph')
    (hf : ∀ a, Task.Uses (S := services τ) steadyCalls (f a)) :
    (jobProtocol τ).Conforms call (op.perform.bind f) ph (fun _ _ => True) := by
  refine Discipline.Conforms.await_bind ?_
  intro choice before res after hexec
  obtain ⟨ph', hnext⟩ := hstep choice before res after hexec
  refine ⟨ph', hnext, ?_⟩
  cases res with
  | ok a => exact conforms_rest (hf a)
  | error e => trivial

/-- Where a run is settled: its handler was never started, or it has settled. -/
def Settling (id : String) (job : Job τ) (ph : JobPhase τ) : Prop :=
  ph = .claimed id job ∨ ∃ unavailable, ph = .answered id job unavailable

/-- A counted write that settles a run, and steady calls after it. -/
theorem conforms_settle {id key tenantId : String} {job : Job τ} {u : JobUpdate τ}
    {f : Option (Job τ) → Svc τ α} (hph : Settling id job ph) (hkey : key = id ∨ key = job.id)
    (hu : Settles job u) (hstatus : u.status ≠ some .completed)
    (hcounted : u.status = some .retrying → u.attemptCount ≠ none)
    (hf : ∀ a, Task.Uses (S := services τ) steadyCalls (f a)) :
    (jobProtocol τ).Conforms call
      ((JobOp.updateJob tenantId key job.version u).perform.bind f) ph (fun _ _ => True) := by
  refine conforms_write (fun choice before res after _ => ?_) hf
  rcases hph with rfl | ⟨unavailable, rfl⟩
  · exact ⟨_, .giveUp hkey hu hstatus⟩
  · exact ⟨_, .settle hkey hu fun hs hc => absurd hc (hcounted hs)⟩

namespace JobService

theorem conforms_deny {id : String} {job : Job τ} (hph : Settling id job ph) (reason : String) :
    (jobProtocol τ).Conforms call (deny job reason) ph (fun _ _ => True) := by
  unfold deny
  refine conforms_settle hph (.inr rfl) (.failed rfl (.inl rfl)) (by simp) (by simp) ?_
  intro updated
  exact Task.Uses.bind (uses_authority uses_now) fun t => steady_ambient.uses_jobAudit ..

theorem conforms_recordExecutionFailure {id : String} {job : Job τ} (hph : Settling id job ph)
    (principalId : String) (error : JsError) :
    (jobProtocol τ).Conforms call (recordExecutionFailure job principalId error) ph
      (fun _ _ => True) := by
  unfold recordExecutionFailure
  simp only
  split
  · refine conforms_steady_bind (uses_authority uses_now) (fun _ => trivial) fun failedAt => ?_
    exact conforms_settle hph (.inr rfl) (.failed rfl (.inr rfl)) (by simp) (by simp)
      fun _ => steady_ambient.uses_jobAudit ..
  · next hmore =>
    refine conforms_steady_bind (uses_authority uses_now) (fun _ => trivial) fun t => ?_
    refine conforms_steady_bind (Task.uses_settled _ _) (fun _ => trivial) fun nextAttemptAt => ?_
    refine conforms_settle hph (.inr rfl) (.retried rfl rfl (not_le.mp hmore)) (by simp) (by simp) ?_
    exact fun _ => Task.Uses.bind (uses_authority uses_now) fun _ => steady_ambient.uses_jobAudit ..

theorem conforms_jobAudit (type jobId tenantId principalId : String) (timestamp : τ)
    (success : Bool) (details : List (String × String)) :
    (jobProtocol τ).Conforms call
      (jobAudit type jobId tenantId principalId timestamp success details) ph
      (fun r ph' => ph' = ph ∧ ∀ e, r = .error e → e.code? = none) := by
  unfold jobAudit
  refine Discipline.Conforms.await_bind ?_
  intro choice before res after hexec
  refine ⟨ph, .quiet rfl, ?_⟩
  cases res with
  | ok id =>
    refine Discipline.conforms_perform fun choice before res after hexec => ⟨ph, .quiet rfl, rfl, ?_⟩
    intro e he
    subst he
    exact stored_error hexec ⟨_, rfl⟩
  | error e =>
    obtain ⟨-, id, -, hid⟩ := AuthorityOp.exec_uuid hexec
    cases hid

/-- Completing a job fails only as a store does. -/
theorem conforms_completeJob {id : String} {job : Job τ} {unavailable : Bool} (principalId : String)
    (runId : Option String) :
    (jobProtocol τ).Conforms call (completeJob job principalId runId) (.answered id job unavailable)
      (fun r ph' => ph' = .answered id job unavailable ∧ ∀ e, r = .error e → e.code? = none) := by
  unfold completeJob
  refine Discipline.Conforms.bind (conforms_now (gatewayCalls_subset.trans (authority_idle call _))) ?_ ?_
  · intro completedAt ph' hph
    obtain rfl := hph.1
    refine Discipline.Conforms.await_bind ?_
    intro choice before res after hexec
    refine ⟨_, .settle (.inr rfl) (.completed rfl rfl) (fun hs => by cases hs), ?_⟩
    cases res with
    | ok updated => exact conforms_jobAudit _ _ _ _ _ _ _
    | error e =>
      refine ⟨rfl, fun e' he' => ?_⟩
      cases he'
      exact stored_error hexec ⟨_, rfl⟩
  · intro e ph' hph
    obtain ⟨-, t, ht⟩ := hph
    cases ht

/-! ## Running a claimed job -/

/-- An error a run may be settled from: when it is taken for the authority's, the
handler was not started, or it settled with that error. -/
def Failing (id : String) (job : Job τ) (e : JsError) (ph : JobPhase τ) : Prop :=
  ph = .claimed id job ∨ ∃ unavailable, ph = .answered id job unavailable ∧
    (e.code?.any ServiceFailureCode.isUnavailable = true → unavailable = true)

omit [Timestamp τ] in
theorem Failing.settling {id : String} {job : Job τ} {e : JsError} {ph : JobPhase τ}
    (h : Failing id job e ph) : Settling id job ph := by
  rcases h with h | ⟨unavailable, h, -⟩
  · exact .inl h
  · exact .inr ⟨unavailable, h⟩

theorem conforms_settleError {tenantId id : String} {job : Job τ} {e : JsError}
    (hph : Failing id job e ph) (principalId : String) :
    (jobProtocol τ).Conforms call (settleError job tenantId id principalId e) ph
      (fun _ _ => True) := by
  unfold settleError
  split
  · exact conforms_deny hph.settling _
  · exact conforms_deny hph.settling _
  all_goals
    first
    | exact conforms_recordExecutionFailure hph.settling _ _
    | next hcode =>
      refine conforms_steady_bind (uses_authority uses_now) (fun _ => trivial) fun t => ?_
      refine conforms_steady_bind (Task.uses_settled _ _) (fun _ => trivial) fun nextAttemptAt => ?_
      refine conforms_write (fun choice before res after _ => ?_) fun _ => trivial
      rcases hph with rfl | ⟨unavailable, rfl, hunavailable⟩
      · exact ⟨_, .giveUp (.inl rfl) (.putBack rfl rfl) (by simp)⟩
      · refine ⟨_, .settle (.inl rfl) (.putBack rfl rfl) fun _ _ => hunavailable ?_⟩
        rw [hcode]
        rfl

/-- The handler of a host: it is started once, and settles once. -/
theorem conforms_invokeHandler {id : String} {job : Job τ} (execution : Option (JobExecution τ))
    (hrun : ∀ e ∈ execution, e.runId = job.id ++ ":" ++ toString (job.attemptCount + 1)) :
    (jobProtocol τ).Conforms call
      (invokeHandler (fun job _ => (HostOp.awaitJobHandler job).perform) job execution)
      (.claimed id job) (fun r ph' => ph' = .answered id job (looksUnavailable call.host job r)) := by
  unfold invokeHandler
  refine Discipline.Conforms.await_bind ?_
  intro choice before res after hexec
  refine ⟨_, .start hrun, ?_⟩
  obtain rfl := (computed_ok hexec).1
  exact Discipline.conforms_perform fun choice before res after _ => ⟨_, .answer, rfl⟩

theorem conforms_executeLegacyHandler {id : String} {job : Job τ} :
    (jobProtocol τ).Conforms call
      (executeLegacyHandler job (fun job _ => (HostOp.awaitJobHandler job).perform))
      (.claimed id job) (fun _ _ => True) := by
  unfold executeLegacyHandler
  refine Discipline.Conforms.tryCatch
    (Q := fun _ ph' => ∃ unavailable, ph' = JobPhase.answered id job unavailable) ?_ (fun _ _ _ => trivial) ?_
  · refine Discipline.Conforms.bind (conforms_invokeHandler none (fun _ he => by cases he)) ?_ ?_
    · intro _ ph' hph
      subst hph
      refine Discipline.Conforms.bind (conforms_completeJob _ none) ?_ ?_
      · intro _ ph' hph
        exact ⟨_, hph.1⟩
      · intro e ph' hph
        exact ⟨_, hph.1⟩
    · intro e ph' hph
      exact ⟨_, hph⟩
  · intro e ph' hph
    refine Discipline.Conforms.bind (conforms_recordExecutionFailure (.inr hph) _ e) ?_ ?_
    · intro _ _ _
      trivial
    · intro _ _ _
      trivial

theorem conforms_runAuthorized {gateway : ServiceGateway} {tenantId id : String} {job : Job τ}
    (durable : DurablePrincipal) (hauthorized : call.host.authorizes job = true) :
    (jobProtocol τ).Conforms call
      (runAuthorized gateway (fun job _ => (HostOp.awaitJobHandler job).perform) job durable tenantId id)
      (.claimed id job) (fun _ _ => True) := by
  unfold runAuthorized
  refine conforms_steady_bind (uses_authority (uses_mintVerifiedPrincipal _ _)) (fun _ => trivial)
    fun principal => ?_
  refine Discipline.Conforms.tryCatch (Q := fun r ph' => ∀ e, r = .error e → Failing id job e ph')
    ?_ (fun _ _ _ => trivial) ?_
  · refine Discipline.Conforms.bind (Q := fun r ph' => match r with
      | .ok _ => ph' = JobPhase.answered id job false
      | .error e => Failing id job e ph') ?_ ?_ ?_
    · refine conforms_execute (fun ph => gatewayCalls_subset.trans (authority_idle call ph))
        (Q := fun r ph' => ph' = JobPhase.answered id job (looksUnavailable call.host job r))
        (fun _ => .inl rfl) (fun context _ => conforms_invokeHandler _ (by simp)) ?_ ?_ ?_
      · intro a ph' hph
        exact hph
      · -- the row of an effect that returned could not be completed
        intro a ph' e hph he
        refine .inr ⟨_, hph, ?_⟩
        rw [he]
        intro h
        cases h
      · intro e ph' hph
        refine .inr ⟨_, hph, fun h => ?_⟩
        simp only [looksUnavailable, hauthorized, Bool.true_and]
        exact h
    · intro _ ph' hph
      subst hph
      refine Discipline.Conforms.bind (conforms_completeJob _ _) ?_ ?_
      · intro _ ph' _ e he
        cases he
      · intro e ph' hph e' he
        cases he
        refine .inr ⟨_, hph.1, ?_⟩
        rw [hph.2 e rfl]
        intro h
        cases h
    · intro e ph' hph e' he
      cases he
      exact hph
  · intro e ph' hph
    refine Discipline.Conforms.bind (conforms_settleError (hph e rfl) _) ?_ ?_
    · intro _ _ _
      trivial
    · intro _ _ _
      trivial

theorem conforms_runClaimed {tenantId id : String} {job : Job τ} :
    (jobProtocol τ).Conforms call (call.host.service.runClaimed job tenantId id) (.claimed id job)
      (fun _ _ => True) := by
  unfold runClaimed
  split
  · refine conforms_write (fun choice before res after _ => ?_) fun _ => trivial
    exact ⟨_, .giveUp (.inl rfl) (.failed rfl (.inl rfl)) (by simp)⟩
  next handler hhandler =>
  -- a registered handler is awaited, and does nothing else here
  obtain rfl : handler = fun job _ => (HostOp.awaitJobHandler job).perform := by
    simp only [JobHost.service] at hhandler
    split at hhandler
    · exact (Option.some.inj hhandler).symm
    · cases hhandler
  have hauthority : (call.host.service (τ := τ)).authority = call.host.authority := rfl
  split
  · exact conforms_executeLegacyHandler
  next gateway hgateway =>
  split
  · exact conforms_executeLegacyHandler
  next hsystem =>
  split
  · refine Discipline.Conforms.bind (conforms_deny (.inl rfl) _) ?_ ?_
    · intro _ _ _
      trivial
    · intro _ _ _
      trivial
  next durable hdurable =>
  refine conforms_steady_bind (uses_authority (gateway.uses_attest _ _).attempt)
    (fun _ => trivial) fun attested => ?_
  split
  · refine Discipline.Conforms.bind (conforms_deny (.inl rfl) _) ?_ ?_
    · intro _ _ _
      trivial
    · intro _ _ _
      trivial
  · refine conforms_runAuthorized durable ?_
    rw [hauthority] at hgateway
    rw [JobHost.authorizes, hgateway]
    simpa using hsystem

/-! ## Claiming -/

theorem conforms_claimAndRun {tenantId id : String} {job : Job τ}
    (hph : ph = .counted id job ∨ ∃ t, ph = .judged id job t ∧ isAbandoned t job = false ∧
      (job.status = .running → job.leaseOwner ≠ none)) :
    (jobProtocol τ).Conforms call (call.host.service.claimAndRun job tenantId id) ph
      (fun _ _ => True) := by
  unfold claimAndRun
  refine conforms_steady_bind (uses_authority uses_now) (fun _ => trivial) fun t => ?_
  refine conforms_steady_bind (Task.uses_settled _ _) (fun _ => trivial) fun lease => ?_
  refine Discipline.Conforms.await_bind ?_
  intro choice before res after _
  refine ⟨_, .claim hph rfl, ?_⟩
  match res with
  | .ok (some claimed) => exact conforms_runClaimed
  | .ok none => trivial
  | .error e => trivial

theorem conforms_countAbandoned {tenantId id : String} {job : Job τ} {t : τ}
    (habandoned : isAbandoned t job = true) :
    (jobProtocol τ).Conforms call (countAbandoned job tenantId id t) (.judged id job t)
      (fun r ph' => ∀ job', r = .ok (some job') → ph' = .counted id job') := by
  unfold countAbandoned
  simp only
  split
  · refine Discipline.Conforms.await_bind ?_
    intro choice before res after _
    refine ⟨_, .exhaust habandoned rfl rfl, ?_⟩
    match res with
    | .ok (some failed) =>
      refine Discipline.Conforms.bind (conforms_rest (steady_ambient.uses_jobAudit ..)) ?_ ?_
      · intro _ _ _ job' h
        cases h
      · intro _ _ _ job' h
        cases h
    | .ok none =>
      intro job' h
      cases h
    | .error e =>
      intro job' h
      cases h
  · next hmore =>
    refine Discipline.conforms_perform fun choice before res after _ => ?_
    refine ⟨_, .count habandoned (not_le.mp hmore) rfl rfl rfl rfl, ?_⟩
    intro job' hres
    subst hres
    rfl

/-- **`executeJob`**, wherever its process stands when it is called. -/
theorem conforms_executeJob (hcall : call.entry.executes = true) (tenantId jobId workerId : String) :
    (jobProtocol τ).Conforms call (call.host.service.executeJob tenantId jobId workerId) ph
      (fun _ _ => True) := by
  unfold executeJob
  refine Discipline.Conforms.await_bind ?_
  intro choice before res after _
  match res with
  | .error e => exact ⟨ph, .quiet rfl, trivial⟩
  | .ok none => exact ⟨ph, .quiet rfl, trivial⟩
  | .ok (some job) =>
    refine ⟨_, .fetch hcall, ?_⟩
    refine Discipline.Conforms.await_bind ?_
    intro choice before res after hexec
    obtain ⟨rfl, rfl⟩ := computed_ok hexec
    refine ⟨_, .judge rfl, ?_⟩
    simp only
    split
    · next habandoned =>
      refine Discipline.Conforms.bind (conforms_countAbandoned habandoned) ?_ ?_
      · intro counted ph' hph
        cases counted with
        | none => trivial
        | some counted => exact conforms_claimAndRun (.inl (hph counted rfl))
      · intro _ _ _
        trivial
    · next hfresh =>
      split
      · trivial
      · next hheld =>
        refine conforms_claimAndRun (.inr ⟨_, rfl, Bool.eq_false_iff.mpr hfresh, ?_⟩)
        intro hrunning hnone
        exact hheld ⟨hrunning, by rw [hnone]; simp⟩

/-! ## Retrying -/

theorem conforms_resetJob {id : String} {job : Job τ} (principalId : String) :
    (jobProtocol τ).Conforms call (resetJob job principalId) (.owned id job) (fun _ _ => True) := by
  unfold resetJob
  refine conforms_steady_bind (uses_authority uses_now) (fun _ => trivial) fun t => ?_
  refine conforms_write (fun choice before res after _ => ⟨_, .reset (.inr rfl)⟩) fun updated => ?_
  split
  · trivial
  · exact (steady_ambient.uses_jobAudit ..).bind fun _ => trivial

theorem conforms_retry (service : JobService τ) (hcall : call.entry.executes = false)
    (tenantId jobId : String) (caller : PrincipalInput) :
    (jobProtocol τ).Conforms call (service.retry tenantId jobId caller) ph (fun _ _ => True) := by
  unfold retry
  refine Discipline.Conforms.await_bind ?_
  intro choice before res after _
  match res with
  | .error e => exact ⟨ph, .quiet rfl, trivial⟩
  | .ok none => exact ⟨ph, .quiet rfl, trivial⟩
  | .ok (some job) =>
    refine ⟨_, .own hcall, ?_⟩
    simp only
    split
    · exact conforms_resetJob _
    next gateway _ =>
    refine conforms_steady_bind (uses_authority (uses_requireVerifiedPrincipal _))
      (fun _ => trivial) fun principal => ?_
    refine conforms_steady_bind (Task.uses_settled _ _) (fun _ => trivial) fun tenant => ?_
    refine Discipline.Conforms.await_bind ?_
    intro choice before res after _
    match res with
    | .error e => exact ⟨_, .quiet rfl, trivial⟩
    | .ok none => exact ⟨_, .quiet rfl, trivial⟩
    | .ok (some owned) =>
      refine ⟨_, .own hcall, ?_⟩
      simp only
      split
      · trivial
      · exact conforms_execute (fun ph => gatewayCalls_subset.trans (authority_idle call ph)) (Q := fun _ _ => True) (fun _ => trivial)
          (fun _ _ => conforms_resetJob _) (fun _ _ _ => trivial) (fun _ _ _ _ _ => trivial)
          (fun _ _ _ => trivial)

end JobService

theorem conforms_discard {t : Svc τ α}
    (h : (jobProtocol τ).Conforms call t ph (fun _ _ => True)) :
    (jobProtocol τ).Conforms call (discard t) ph (fun _ _ => True) :=
  h.bind (fun _ _ _ => trivial) (fun _ _ _ => trivial)

end conformance

/-- **Every entry point of the job service follows the protocol.** -/
theorem jobProtocol_obeyed : (jobProtocol τ).Obeyed := by
  rintro ⟨host, entry⟩
  cases entry with
  | executeJob tenantId jobId workerId =>
    exact conforms_discard (JobService.conforms_executeJob rfl tenantId jobId workerId)
  | work tenantId workerId =>
    refine conforms_steady_bind (uses_authority uses_now) (fun _ => trivial) fun t => ?_
    refine conforms_steady_bind (uses_quiet rfl) (fun _ => trivial) fun due => ?_
    split
    · trivial
    · next job _ =>
      exact (JobService.conforms_executeJob rfl tenantId job.id workerId).bind
        (fun _ _ _ => trivial) (fun _ _ _ => trivial)
  | managedRound tenantId workerId =>
    refine conforms_steady_bind (JobService.uses_processRecurringSchedules steady_ambient tenantId
      (fun _ _ _ => create_steady (JobService.fresh_scheduledJob ..)) fun _ _ => .inl rfl)
      (fun _ => trivial) fun _ => ?_
    refine conforms_steady_bind (Task.Uses.bind (uses_authority uses_now) fun _ => uses_quiet rfl)
      (fun _ => trivial) fun due => ?_
    refine Discipline.Conforms.forEach (I := fun _ => True) ?_ (fun _ _ => trivial) due trivial
    intro job ph _
    exact (JobService.conforms_executeJob rfl job.tenantId job.id workerId).bind
      (fun _ _ _ => trivial) (fun _ _ _ => trivial)
  | retry tenantId jobId caller =>
    exact conforms_discard (JobService.conforms_retry _ rfl tenantId jobId caller)
  | enqueue input caller =>
    exact conforms_rest (uses_discard (host.service.uses_enqueue steady_ambient input caller
      fun _ _ _ _ _ _ _ _ => create_steady (host.service.fresh_jobRecord ..)))
  | schedule input caller =>
    exact conforms_rest (uses_discard (host.service.uses_schedule steady_ambient input caller
      fun _ _ _ _ _ _ _ _ => create_steady (host.service.fresh_jobRecord ..)))
  | scheduleRecurring input caller =>
    exact conforms_rest (uses_discard (host.service.uses_scheduleRecurring steady_ambient input
      caller fun _ _ _ _ _ _ _ _ _ _ => .inl rfl))
  | systemEnqueue input =>
    exact conforms_rest (uses_discard (host.service.uses_systemEnqueue steady_ambient input
      fun _ _ _ => create_steady (host.service.fresh_jobRecord ..)))
  | disableSchedule tenantId scheduleId caller =>
    exact conforms_rest (uses_discard (host.service.uses_disableSchedule steady_ambient tenantId
      scheduleId caller))
  | processRecurringSchedules tenantId =>
    exact conforms_rest (uses_discard (JobService.uses_processRecurringSchedules steady_ambient
      tenantId (fun _ _ _ => create_steady (JobService.fresh_scheduledJob ..)) fun _ _ => .inl rfl))
  | createSchedule input caller =>
    exact conforms_rest (uses_discard (host.schedules.uses_create steady_ambient input caller
      fun _ _ _ _ _ _ _ _ _ _ => .inl rfl))
  | importSchedules document dryRun overwrite caller =>
    exact conforms_rest (host.schedules.uses_importSchedules steady_ambient document dryRun
      overwrite caller fun _ _ _ _ _ _ _ _ _ _ _ => .inl rfl)
  | authorize capability caller resource requestId =>
    simp only [jobBody]
    split
    · next gateway _ =>
      exact conforms_rest (uses_discard (uses_authority (gateway.uses_authorize ..)))
    · trivial
  | transaction calls => exact conforms_rest (uses_steady_transaction host.authority calls)

end AppPort
