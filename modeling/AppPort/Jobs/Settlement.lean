import AppPort.Jobs.Due

/-!
# Settlements and their audit

A claimed job is settled by a compare-and-set under the version of the claim, and then
by an audit row. Settlement is fenced: a write under a version that was superseded
changes nothing. It is not audited truthfully, because `completeJob`,
`recordExecutionFailure` and `deny` write their row without looking at whether the
compare-and-set went through, and a job without a handler, or put back because the
authority could not decide, is moved without a row.

The ledger of a process is read off its own calls: what it moved and has not audited
yet. The protocol below says when the ledger is kept; `settlements_are_audited` is the
guarantee for the runs in which no claim is superseded before it is settled, and none
settled silently.
-/

namespace AppPort

open Effects Effects.Platform

variable {τ : Type}

/-! ## The ledger -/

/-- What a job can be settled as. -/
inductive Settlement where
  | completed
  | failed
  | retrying
  | denied
  deriving DecidableEq, Repr

/-- The type of the audit row of a settlement. -/
def Settlement.auditType : Settlement → String
  | .completed => "job.completed"
  | .failed => "job.failed"
  | .retrying => "job.retrying"
  | .denied => "job.denied"

/-- A failure that is a denial: the attempt is not counted, and the error says so. -/
def JobUpdate.isDenial (u : JobUpdate τ) : Bool :=
  u.attemptCount.isNone && (match u.lastError with
    | some (some error) => "DENIED: ".toList.isPrefixOf error.toList
    | _ => false)

/-- What the update settles the record as, if anything. -/
def JobUpdate.settlement (u : JobUpdate τ) : Option Settlement :=
  match u.status with
  | some .completed => some .completed
  | some .retrying => some .retrying
  | some .failed => some (if u.isDenial then .denied else .failed)
  | _ => none

/-- What the audit row says a job was settled as, if anything. -/
def JobAuditEvent.settlement (event : JobAuditEvent τ) : Option (String × Settlement) :=
  match event.jobId, [Settlement.completed, .failed, .retrying, .denied].find?
      (fun k => k.auditType == event.type) with
  | some id, some k => some (id, k)
  | _, _ => none

/-- A run is put back without counting the attempt. -/
def JobUpdate.putsBack (u : JobUpdate τ) : Bool :=
  u.status == some .retrying && u.attemptCount.isNone

/-! ## The platform

Workers execute jobs and callers reset them, any number of each, over one store. Jobs
are created, time passes, and everything the job service does not own changes, at any
time. -/

inductive SettlementEntry where
  | executeJob (tenantId jobId workerId : String)
  | retry (tenantId jobId : String) (caller : PrincipalInput)

/-- The job the entry point works on. -/
def SettlementEntry.jobId : SettlementEntry → String
  | .executeJob _ jobId _ | .retry _ jobId _ => jobId

structure SettlementCall where
  host : JobHost
  entry : SettlementEntry

/-- What happens besides the calls. -/
inductive SettlementEnv (τ : Type) where
  | tick (t : τ)
  | create (job : Job τ)
  | others (f : World τ → World τ)

section platform

variable [Timestamp τ]

/-- `executeJob` and `retry`; what `retry` answers with is left out. -/
def settlementBody (call : SettlementCall) : Svc τ Bool :=
  match call.entry with
  | .executeJob tenantId jobId workerId => call.host.service.executeJob tenantId jobId workerId
  | .retry tenantId jobId caller =>
    (call.host.service.retry tenantId jobId caller).bind fun _ => pure false

def settlementEnv (move : SettlementEnv τ) (w : World τ) : Option (World τ) :=
  match move with
  | .tick t => if w.clock ≤ t then some { w with clock := t } else none
  | .create job =>
    if job.leaseOwner.isNone then
      (w.jobs.insertAbsent job.id job).map fun jobs => { w with jobs := jobs }
    else none
  | .others f => some { f w with clock := w.clock, jobs := w.jobs }

abbrev settlementPlatform (τ : Type) [Timestamp τ] : Platform :=
  appPlatform (settlementBody (τ := τ)) settlementEnv

/-- The settlement a step commits. -/
def committed : (settlementPlatform τ).Step → Option (String × Settlement)
  | ⟨_, .jobs (.updateJob _ id _ u), _, before, after⟩ =>
    if changed id before after then u.settlement.map fun k => (id, k) else none
  | _ => none

/-- The settlement a step audits. -/
def audited : (settlementPlatform τ).Step → Option (String × Settlement)
  | ⟨_, .audit (.job event), .ok _, _, _⟩ => event.settlement
  | _ => none

/-- The ledger of a process: what it has moved and not audited yet, as long as it audits
what it moves, and nothing else, one at a time. -/
def ledger : List (settlementPlatform τ).Step → Option (Option (String × Settlement))
  | [] => some none
  | step :: older =>
    match ledger older, committed step, audited step with
    | some owed, none, none => some owed
    | some none, some moved, none => some (some moved)
    | some (some owed), none, some row => if row = owed then some none else none
    | _, _, _ => none

/-- A claim is the last thing the process asked of the records. -/
def holdsClaim : List (settlementPlatform τ).Step → Bool
  | [] => false
  | step :: older =>
    match step.op with
    | .jobs (.get ..) => false
    | .jobs (.claim ..) => true
    | _ => holdsClaim older

/-! ## The protocol -/

/-- Where a process stands with the job it settles. -/
inductive SettlePhase (τ : Type) where
  /-- It works on no record. -/
  | free
  /-- It found this record. -/
  | read (id tenantId : String) (job : Job τ)
  /-- It claimed the record; this is the record since. -/
  | claimed (id : String) (job : Job τ)
  /-- It moved the record it found under `subject`, and has to audit that. -/
  | owes (subject id : String) (k : Settlement)
  /-- It audited what it had moved. -/
  | audited (subject id : String) (k : Settlement)
  /-- It moved a record without auditing it, or the other way round. -/
  | astray

/-- Nothing is owed. -/
def SettlePhase.Even : SettlePhase τ → Prop
  | .owes _ _ _ => False
  | _ => True

/-- Calls that neither create or move a record nor audit a settlement. -/
def AppOp.isPlain : AppOp τ → Bool
  | .jobs (.create _) | .jobs (.get ..) | .jobs (.claim ..) | .commit _ => false
  | .jobs (.updateJob _ _ _ u) => u.settlement.isNone
  | .audit (.job event) => event.settlement.isNone
  | _ => true

/-- What follows a settlement that is audited whatever came of it. -/
def SettlePhase.afterLoud (id : String) (job : Job τ) (k : Settlement) :
    Except JsError (Option (Job τ)) → SettlePhase τ
  | .ok (some _) => .owes id job.id k
  | .ok none => .astray
  | .error _ => .claimed id job

/-- What follows a settlement that is never audited. -/
def SettlePhase.afterSilent : Except JsError (Option (Job τ)) → SettlePhase τ
  | .ok (some _) => .astray
  | _ => .free

/-- What follows a settlement that is audited if it went through. -/
def SettlePhase.afterExhausted (id : String) : Except JsError (Option (Job τ)) → SettlePhase τ
  | .ok (some _) => .owes id id .failed
  | _ => .free

/-- **The protocol of one process.** -/
inductive SettleStep : SettlePhase τ → (settlementPlatform τ).Step → SettlePhase τ → Prop where
  | plain {ph : SettlePhase τ} {step : (settlementPlatform τ).Step} (hop : step.op.isPlain = true) :
    SettleStep ph step ph
  | fetch {ph : SettlePhase τ} {call : SettlementCall} {tenantId id : String}
    {res : Except JsError (Option (Job τ))} {before after : World τ}
    (hph : ph.Even) (hplain : ph ≠ .astray) :
    SettleStep ph ⟨call, .jobs (.get tenantId id), res, before, after⟩
      (match res with | .ok (some job) => .read id tenantId job | _ => .free)
  | claim {call : SettlementCall} {tenantId id : String} {v : Nat} {lease : τ} {job : Job τ}
    {res : Except JsError (Option (Job τ))} {before after : World τ} :
    SettleStep (.read id tenantId job)
      ⟨call, .jobs (.claim tenantId id v lease), res, before, after⟩
      (match res with | .ok (some job') => .claimed id job' | _ => .free)
  /-- The abandoned attempt was the last. -/
  | exhaust {call : SettlementCall} {tenantId id : String} {job : Job τ} {u : JobUpdate τ}
    {res : Except JsError (Option (Job τ))} {before after : World τ}
    (hu : u.settlement = some .failed) :
    SettleStep (.read id tenantId job)
      ⟨call, .jobs (.updateJob tenantId id job.version u), res, before, after⟩
      (.afterExhausted id res)
  | settle {call : SettlementCall} {id : String} {job : Job τ} {u : JobUpdate τ} {k : Settlement}
    {res : Except JsError (Option (Job τ))} {before after : World τ}
    (hu : u.settlement = some k) (hback : u.putsBack = false)
    (hhandled : job.type ∈ call.host.registered) :
    SettleStep (.claimed id job)
      ⟨call, .jobs (.updateJob job.tenantId job.id job.version u), res, before, after⟩
      (.afterLoud id job k res)
  | silent {call : SettlementCall} {tenantId id : String} {job : Job τ} {u : JobUpdate τ}
    {res : Except JsError (Option (Job τ))} {before after : World τ}
    (hu : u.settlement.isSome) (hsilent : u.putsBack = true ∨ job.type ∉ call.host.registered) :
    SettleStep (.claimed id job)
      ⟨call, .jobs (.updateJob tenantId id job.version u), res, before, after⟩
      (.afterSilent res)
  | audit {call : SettlementCall} {subject id : String} {k : Settlement} {event : JobAuditEvent τ}
    {res : Except JsError Unit} {before after : World τ} (hevent : event.settlement = some (id, k)) :
    SettleStep (.owes subject id k) ⟨call, .audit (.job event), res, before, after⟩
      (match res with | .ok _ => .audited subject id k | .error _ => .astray)
  | stray {step : (settlementPlatform τ).Step} :
    SettleStep .astray step .astray

/-- The protocol as a discipline: no process ends with a move it has to audit, and an
execution answers that it completed the job only after it audited that. -/
abbrev settlementProtocol (τ : Type) [Timestamp τ] : Discipline (settlementPlatform τ) where
  Phase := SettlePhase τ
  start _ := .free
  next := SettleStep
  final call r ph := ph.Even ∧
    (r = .ok true → ph = .astray ∨ ∃ id, ph = .audited call.entry.jobId id .completed)

/-! ## Conformance -/

/-- Calls that leave every phase as it is. -/
def plainCalls : Set (AppOp τ) := {op | op.isPlain = true}

omit [Timestamp τ] in
theorem authority_plain : (authorityCalls : Set (AppOp τ)) ⊆ plainCalls := by
  rintro op ⟨o, rfl⟩
  rfl

theorem plain_idle (call : SettlementCall) (ph : SettlePhase τ) :
    plainCalls ⊆ (settlementProtocol τ).Idle call ph :=
  fun _ hop _ _ _ _ _ => .plain hop

theorem authority_settlement (call : SettlementCall) (ph : SettlePhase τ) :
    authorityCalls ⊆ (settlementProtocol τ).Idle call ph :=
  authority_plain.trans (plain_idle call ph)

section conformance

variable {call : SettlementCall} {ph : SettlePhase τ} {α : Type}

theorem settles_plain {t : Svc τ α} (ht : Task.Uses (S := services τ) plainCalls t) :
    (settlementProtocol τ).Conforms call t ph (fun _ ph' => ph' = ph) :=
  Discipline.Conforms.of_idle (ht.mono (plain_idle call ph))

/-- Plain calls, and then a task from the same phase. -/
theorem settles_plain_bind {β : Type} {t : Svc τ α} {f : α → Svc τ β}
    {Q : Except JsError β → SettlePhase τ → Prop}
    (ht : Task.Uses (S := services τ) plainCalls t) (herr : ∀ e, Q (.error e) ph)
    (hf : ∀ a, (settlementProtocol τ).Conforms call (f a) ph Q) :
    (settlementProtocol τ).Conforms call (t.bind f) ph Q := by
  refine Discipline.Conforms.bind (settles_plain ht) ?_ ?_
  · intro a ph' hph
    subst hph
    exact hf a
  · intro e ph' hph
    subst hph
    exact herr e

omit [Timestamp τ] in
theorem uses_plain {t : Svc τ α} (h : Task.Uses (S := services τ) authorityCalls t) :
    Task.Uses (S := services τ) plainCalls t := h.mono authority_plain

/-- The time, which is always told, and then a task from the same phase. -/
theorem settles_now_bind {f : τ → Svc τ α} {Q : Except JsError α → SettlePhase τ → Prop}
    (hf : ∀ t, (settlementProtocol τ).Conforms call (f t) ph Q) :
    (settlementProtocol τ).Conforms call (now.bind f) ph Q := by
  refine Discipline.Conforms.bind (conforms_now (gatewayCalls_subset.trans (authority_settlement call ph))) ?_ ?_
  · intro t ph' hph
    obtain rfl := hph.1
    exact hf t
  · intro e ph' hph
    obtain ⟨-, t, ht⟩ := hph
    cases ht

/-- A process that went astray stays astray. -/
theorem settles_astray : (t : Svc τ α) →
    (settlementProtocol τ).Conforms call t .astray (fun _ ph' => ph' = .astray)
  | .settled _ => rfl
  | .await _ k => fun _ _ res _ _ => ⟨.astray, .stray, settles_astray (k res)⟩

/-- The audit row of what was moved. -/
theorem settles_audit {subject id : String} {k : Settlement} (tenantId principalId : String)
    (timestamp : τ) (success : Bool) (details : List (String × String)) :
    (settlementProtocol τ).Conforms call
      (JobService.jobAudit k.auditType id tenantId principalId timestamp success details)
      (.owes subject id k)
      (fun r ph' => match r with | .ok _ => ph' = .audited subject id k | .error _ => ph' = .astray) := by
  unfold JobService.jobAudit
  refine Discipline.Conforms.await_bind ?_
  intro choice before res after hexec
  refine ⟨_, .plain rfl, ?_⟩
  cases res with
  | error e =>
    -- an id is always drawn
    obtain ⟨-, id, -, hid⟩ := AuthorityOp.exec_uuid hexec
    cases hid
  | ok uuid =>
    refine Discipline.conforms_perform fun choice before res after _ => ⟨_, .audit ?_, ?_⟩
    · cases k <;> rfl
    · cases res <;> rfl

/-- **A settlement that is audited whatever came of it**, from a claimed job. -/
theorem settles_loud {id : String} {job : Job τ} {u : JobUpdate τ} {k : Settlement}
    {audit : Svc τ Unit} (hu : u.settlement = some k) (hback : u.putsBack = false)
    (hhandled : job.type ∈ call.host.registered)
    (haudit : (settlementProtocol τ).Conforms call audit (.owes id job.id k)
      (fun r ph' => match r with
        | .ok _ => ph' = .audited id job.id k
        | .error _ => ph' = .astray)) :
    (settlementProtocol τ).Conforms call
      ((JobOp.updateJob job.tenantId job.id job.version u).perform.bind fun _ => audit)
      (.claimed id job) (fun r ph' => match r with
        | .ok _ => ph' = .audited id job.id k ∨ ph' = .astray
        | .error _ => ph' = .claimed id job ∨ ph' = .astray) := by
  refine Discipline.Conforms.await_bind ?_
  intro choice before res after _
  refine ⟨_, .settle hu hback hhandled, ?_⟩
  match res with
  | .error e => exact .inl rfl
  | .ok none =>
    refine Discipline.Conforms.mono ?_ (settles_astray audit)
    intro r ph' hph
    cases r <;> exact .inr hph
  | .ok (some stored) =>
    refine Discipline.Conforms.mono ?_ haudit
    intro r ph' hph
    cases r with
    | ok _ => exact .inl hph
    | error _ => exact .inr hph

/-- Where a settled run may end. -/
def SettlesEven (call : SettlementCall) (t : Svc τ α) (ph : SettlePhase τ) : Prop :=
  (settlementProtocol τ).Conforms call t ph (fun _ ph' => ph'.Even)

theorem SettlesEven.then_pure {β : Type} {t : Svc τ α} (h : SettlesEven call t ph) (b : β) :
    SettlesEven call (t.bind fun _ => pure b) ph :=
  Discipline.Conforms.bind h (fun _ _ hph => hph) (fun _ _ hph => hph)

/-- Whatever a process that went astray does, nothing is owed. -/
theorem settlesEven_astray (t : Svc τ α) : SettlesEven call t .astray := by
  refine Discipline.Conforms.mono ?_ (settles_astray t)
  intro r ph' hph
  subst hph
  trivial

namespace JobService

theorem settles_completeJob {id : String} {job : Job τ} (principalId : String)
    (runId : Option String) (hhandled : job.type ∈ call.host.registered) :
    (settlementProtocol τ).Conforms call (completeJob job principalId runId) (.claimed id job)
      (fun r ph' => match r with
        | .ok _ => ph' = .audited id job.id .completed ∨ ph' = .astray
        | .error _ => ph' = .claimed id job ∨ ph' = .astray) := by
  unfold completeJob
  refine settles_now_bind fun completedAt => ?_
  exact settles_loud rfl rfl hhandled (settles_audit (k := .completed) _ _ _ _ _)

/-- A loud settlement leaves nothing owed. -/
theorem settlesEven_loud {id : String} {job : Job τ} {u : JobUpdate τ} {k : Settlement}
    {audit : Svc τ Unit} (hu : u.settlement = some k) (hback : u.putsBack = false)
    (hhandled : job.type ∈ call.host.registered)
    (haudit : (settlementProtocol τ).Conforms call audit (.owes id job.id k)
      (fun r ph' => match r with
        | .ok _ => ph' = .audited id job.id k
        | .error _ => ph' = .astray)) :
    SettlesEven call
      ((JobOp.updateJob job.tenantId job.id job.version u).perform.bind fun _ => audit)
      (.claimed id job) := by
  refine Discipline.Conforms.mono ?_ (settles_loud hu hback hhandled haudit)
  intro r ph' hph
  cases r <;> rcases hph with rfl | rfl <;> trivial

theorem settles_recordExecutionFailure {id : String} {job : Job τ} (principalId : String)
    (error : JsError) (hhandled : job.type ∈ call.host.registered) :
    SettlesEven call (recordExecutionFailure job principalId error) (.claimed id job) := by
  unfold recordExecutionFailure
  simp only
  split
  · refine settles_now_bind fun failedAt => ?_
    exact settlesEven_loud rfl rfl hhandled (settles_audit (k := .failed) _ _ _ _ _)
  · refine settles_now_bind fun t => ?_
    refine settles_plain_bind (Task.uses_settled _ _) (fun _ => trivial) fun nextAttemptAt => ?_
    refine settlesEven_loud (k := .retrying) rfl rfl hhandled ?_
    exact settles_now_bind fun timestamp => settles_audit (k := .retrying) _ _ _ _ _

omit [Timestamp τ] in
/-- A denial says that it is one. -/
theorem settlement_deny (reason : String) :
    ({ status := some .failed, lastError := some (some ("DENIED: " ++ reason)) } :
      JobUpdate τ).settlement = some .denied := by
  simp [JobUpdate.settlement, JobUpdate.isDenial]

theorem settles_deny {id : String} {job : Job τ} (reason : String)
    (hhandled : job.type ∈ call.host.registered) :
    SettlesEven call (deny job ("DENIED: " ++ reason)) (.claimed id job) := by
  unfold deny
  refine settlesEven_loud (settlement_deny reason) rfl hhandled ?_
  exact settles_now_bind fun t => settles_audit (k := .denied) _ _ _ _ _

theorem settles_settleError {tenantId id : String} {job : Job τ} (principalId : String) (e : JsError)
    (hhandled : job.type ∈ call.host.registered) :
    SettlesEven call (settleError job tenantId id principalId e) (.claimed id job) := by
  unfold settleError
  split
  · exact settles_deny _ hhandled
  · exact settles_deny _ hhandled
  all_goals
    first
    | exact settles_recordExecutionFailure _ _ hhandled
    | next hcode =>
      refine settles_now_bind fun t => ?_
      refine settles_plain_bind (Task.uses_settled _ _) (fun _ => trivial) fun nextAttemptAt => ?_
      refine Discipline.Conforms.await_bind ?_
      intro choice before res after _
      refine ⟨_, .silent rfl (.inl rfl), ?_⟩
      match res with
      | .ok (some _) => trivial
      | .ok none => trivial
      | .error _ => trivial

/-- How an execution ends: nothing is owed, and a job it says it completed is audited as
completed. -/
def Executed (id : String) (r : Except JsError Bool) (ph : SettlePhase τ) : Prop :=
  ph.Even ∧ (r = .ok true → ph = .astray ∨ ∃ key, ph = .audited id key .completed)

omit [Timestamp τ] in
theorem executed_of_even {id : String} {r : Except JsError Bool} {ph : SettlePhase τ}
    (hph : ph.Even) (hr : r ≠ .ok true) : Executed id r ph := ⟨hph, fun h => absurd h hr⟩

/-- What completes a job, and the `catch` around it. -/
theorem settles_complete_or {id : String} {job : Job τ} {principalId : String}
    {runId : Option String} {run : Svc τ Unit} {failure : JsError → Svc τ Unit}
    (hhandled : job.type ∈ call.host.registered)
    (hrun : (settlementProtocol τ).Conforms call run (.claimed id job)
      (fun _ ph' => ph' = .claimed id job))
    (hfailure : ∀ e, SettlesEven call (failure e) (.claimed id job)) :
    (settlementProtocol τ).Conforms call
      (Task.tryCatch
        (run.bind fun _ => (completeJob job principalId runId).bind fun _ => pure true)
        fun e => (failure e).bind fun _ => pure false)
      (.claimed id job) (Executed id) := by
  have hfalse : ∀ {e : JsError} {ph : SettlePhase τ}, SettlesEven call (failure e) ph →
      (settlementProtocol τ).Conforms call ((failure e).bind fun _ => pure false) ph
        (Executed id) := by
    intro e ph h
    refine Discipline.Conforms.bind h (fun _ _ hph => ?_) (fun _ _ hph => ?_)
    · exact executed_of_even hph (by simp)
    · exact executed_of_even hph (by simp)
  refine Discipline.Conforms.tryCatch (Q := fun r ph' => match r with
    | .ok _ => ph' = .audited id job.id .completed ∨ ph' = .astray
    | .error _ => ph' = .claimed id job ∨ ph' = .astray) ?_ ?_ ?_
  · refine Discipline.Conforms.bind hrun ?_ ?_
    · intro _ ph' hph
      subst hph
      exact Discipline.Conforms.bind (settles_completeJob _ _ hhandled) (fun _ _ h => h)
        (fun _ _ h => h)
    · intro e ph' hph
      exact .inl hph
  · intro b ph' hph
    rcases hph with rfl | rfl
    · exact ⟨trivial, fun _ => .inr ⟨_, rfl⟩⟩
    · exact ⟨trivial, fun _ => .inl rfl⟩
  · intro e ph' hph
    rcases hph with rfl | rfl
    · exact hfalse (hfailure e)
    · exact hfalse (settlesEven_astray _)

omit [Timestamp τ] in
/-- The handler of a host only waits. -/
theorem uses_plain_invokeHandler (job : Job τ) (execution : Option (JobExecution τ)) :
    Task.Uses (S := services τ) plainCalls
      (invokeHandler (fun job _ => (HostOp.awaitJobHandler job).perform) job execution) :=
  Task.Uses.bind (Task.uses_perform rfl) fun _ => Task.uses_perform rfl

theorem settles_executeLegacyHandler {id : String} {job : Job τ}
    (hhandled : job.type ∈ call.host.registered) :
    (settlementProtocol τ).Conforms call
      (executeLegacyHandler job (fun job _ => (HostOp.awaitJobHandler job).perform))
      (.claimed id job) (Executed id) :=
  settles_complete_or hhandled (settles_plain (uses_plain_invokeHandler job none))
    fun e => settles_recordExecutionFailure _ e hhandled

theorem settles_runAuthorized {gateway : ServiceGateway} {tenantId id : String} {job : Job τ}
    (durable : DurablePrincipal) (hhandled : job.type ∈ call.host.registered) :
    (settlementProtocol τ).Conforms call
      (runAuthorized gateway (fun job _ => (HostOp.awaitJobHandler job).perform) job durable tenantId id)
      (.claimed id job) (Executed id) := by
  unfold runAuthorized
  refine settles_plain_bind (uses_plain (uses_mintVerifiedPrincipal _ _))
    (fun _ => executed_of_even trivial (by simp)) fun principal => ?_
  refine settles_complete_or hhandled (settles_plain ?_)
    fun e => settles_settleError _ e hhandled
  exact gateway.uses_execute authority_plain _ _ _ _ fun context _ => uses_plain_invokeHandler job _

/-- A denial before the handler is looked at. -/
theorem settles_denied {id : String} {job : Job τ} (reason : String)
    (hhandled : job.type ∈ call.host.registered) :
    (settlementProtocol τ).Conforms call ((deny job ("DENIED: " ++ reason)).bind fun _ => pure false)
      (.claimed id job) (Executed id) :=
  Discipline.Conforms.bind (settles_deny reason hhandled)
    (fun _ _ hph => executed_of_even hph (by simp)) (fun _ _ hph => executed_of_even hph (by simp))

theorem settles_runClaimed {tenantId id : String} {job : Job τ} :
    (settlementProtocol τ).Conforms call (call.host.service.runClaimed job tenantId id)
      (.claimed id job) (Executed id) := by
  unfold runClaimed
  split
  · next hhandler =>
    have hmissing : job.type ∉ call.host.registered := by
      intro hmem
      simp [JobHost.service, hmem] at hhandler
    refine Discipline.Conforms.await_bind ?_
    intro choice before res after _
    refine ⟨_, .silent rfl (.inr hmissing), ?_⟩
    rcases res with e | ⟨_ | job'⟩
    · exact executed_of_even trivial (by simp)
    · exact executed_of_even trivial (by simp)
    · exact executed_of_even trivial (by simp)
  next handler hhandler =>
  -- a registered handler is awaited, and does nothing else here
  have hboth : handler = (fun job _ => (HostOp.awaitJobHandler job).perform) ∧
      job.type ∈ call.host.registered := by
    simp only [JobHost.service] at hhandler
    split at hhandler
    · next hmem => exact ⟨(Option.some.inj hhandler).symm, hmem⟩
    · cases hhandler
  obtain ⟨rfl, hhandled⟩ := hboth
  split
  · exact settles_executeLegacyHandler hhandled
  next gateway _ =>
  split
  · exact settles_executeLegacyHandler hhandled
  split
  · exact settles_denied
      "anonymous job execution is not permitted; enqueue jobs through an authorized caller" hhandled
  next durable _ =>
  refine settles_plain_bind (uses_plain (gateway.uses_attest _ _).attempt)
    (fun _ => executed_of_even trivial (by simp)) fun attested => ?_
  split
  · exact settles_denied _ hhandled
  · exact settles_runAuthorized durable hhandled

/-! ## Claiming and retrying -/

theorem settles_claimAndRun {tenantId id : String} {found job : Job τ} :
    (settlementProtocol τ).Conforms call (call.host.service.claimAndRun job tenantId id)
      (.read id tenantId found) (Executed id) := by
  unfold claimAndRun
  refine settles_now_bind fun t => ?_
  refine settles_plain_bind (Task.uses_settled _ _)
    (fun _ => executed_of_even trivial (by simp)) fun lease => ?_
  refine Discipline.Conforms.await_bind ?_
  intro choice before res after _
  refine ⟨_, .claim, ?_⟩
  match res with
  | .ok (some claimed) => exact settles_runClaimed
  | .ok none => exact executed_of_even trivial (by simp)
  | .error e => exact executed_of_even trivial (by simp)

theorem settles_countAbandoned {tenantId id : String} {job : Job τ} {t : τ} :
    (settlementProtocol τ).Conforms call (countAbandoned job tenantId id t) (.read id tenantId job)
      (fun r ph' => match r with
        | .ok (some _) => ph' = .read id tenantId job
        | _ => ph'.Even) := by
  unfold countAbandoned
  simp only
  split
  · refine Discipline.Conforms.await_bind ?_
    intro choice before res after _
    refine ⟨_, .exhaust rfl, ?_⟩
    match res with
    | .ok (some failed) =>
      refine Discipline.Conforms.bind (settles_audit (k := .failed) _ _ _ _ _) ?_ ?_
      · rintro _ ph' rfl
        trivial
      · rintro e ph' rfl
        trivial
    | .ok none => trivial
    | .error e => trivial
  · refine Discipline.conforms_perform fun choice before res after _ => ⟨_, .plain rfl, ?_⟩
    match res with
    | .ok (some _) => rfl
    | .ok none => trivial
    | .error _ => trivial

/-- **`executeJob`.** -/
theorem settles_executeJob (tenantId jobId workerId : String) :
    (settlementProtocol τ).Conforms call (call.host.service.executeJob tenantId jobId workerId)
      .free (Executed jobId) := by
  unfold executeJob
  refine Discipline.Conforms.await_bind ?_
  intro choice before res after _
  refine ⟨_, .fetch trivial (by simp), ?_⟩
  match res with
  | .error e => exact executed_of_even trivial (by simp)
  | .ok none => exact executed_of_even trivial (by simp)
  | .ok (some job) =>
    refine settles_now_bind fun nowIso => ?_
    split
    · refine Discipline.Conforms.bind settles_countAbandoned ?_ ?_
      · intro counted ph' hph
        cases counted with
        | none => exact executed_of_even hph (by simp)
        | some counted =>
          subst hph
          exact settles_claimAndRun
      · intro e ph' hph
        exact executed_of_even hph (by simp)
    · split
      · exact executed_of_even trivial (by simp)
      · exact settles_claimAndRun

omit [Timestamp τ] in
theorem uses_plain_resetJob (job : Job τ) (principalId : String) :
    Task.Uses (S := services τ) plainCalls (resetJob job principalId) := by
  unfold resetJob
  refine Task.Uses.bind (uses_plain uses_now) fun t => ?_
  refine Task.Uses.bind (Task.uses_perform rfl) fun updated => ?_
  split
  · trivial
  · refine Task.Uses.bind (Task.Uses.bind (uses_plain uses_randomUUID) fun _ => ?_) fun _ => trivial
    exact Task.uses_perform rfl

/-- **`retry`**: a reset is no settlement. -/
theorem settles_retry (tenantId jobId : String) (caller : PrincipalInput) :
    SettlesEven call ((call.host.service (τ := τ)).retry tenantId jobId caller) .free := by
  have hread : ∀ {t : Svc τ (Option (Job τ))} {id tenantId : String} {job : Job τ},
      Task.Uses (S := services τ) plainCalls t → SettlesEven call t (.read id tenantId job) := by
    intro t id tenantId job ht
    refine Discipline.Conforms.mono ?_ (settles_plain ht)
    intro r ph' hph
    subst hph
    trivial
  unfold retry
  refine Discipline.Conforms.await_bind ?_
  intro choice before res after _
  refine ⟨_, .fetch trivial (by simp), ?_⟩
  match res with
  | .error e => trivial
  | .ok none => trivial
  | .ok (some job) =>
    simp only
    split
    · exact hread (uses_plain_resetJob job "system")
    next gateway _ =>
    refine settles_plain_bind (uses_plain (uses_requireVerifiedPrincipal _))
      (fun _ => trivial) fun principal => ?_
    refine settles_plain_bind (Task.uses_settled _ _) (fun _ => trivial) fun tenant => ?_
    refine Discipline.Conforms.await_bind ?_
    intro choice before res after _
    refine ⟨_, .fetch trivial (by simp), ?_⟩
    match res with
    | .error e => trivial
    | .ok none => trivial
    | .ok (some owned) =>
      simp only
      split
      · trivial
      · exact hread (gateway.uses_execute authority_plain _ _ _ _ fun _ _ =>
          uses_plain_resetJob owned _)

end JobService

/-- **Executions and resets follow the protocol.** -/
theorem settlementProtocol_obeyed : (settlementProtocol τ).Obeyed := by
  rintro ⟨host, entry⟩
  cases entry with
  | executeJob tenantId jobId workerId => exact JobService.settles_executeJob tenantId jobId workerId
  | retry tenantId jobId caller =>
    refine Discipline.Conforms.bind (JobService.settles_retry tenantId jobId caller) ?_ ?_
    · intro _ ph' hph
      exact ⟨hph, by simp⟩
    · intro e ph' hph
      exact ⟨hph, by simp⟩

end conformance

end platform

end AppPort
