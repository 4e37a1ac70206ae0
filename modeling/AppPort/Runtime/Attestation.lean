import AppPort.Authority.Issuance
import AppPort.Jobs.Service
import AppPort.Runtime.Alone
import AppPort.Runtime.Transaction
import AppPort.Webhooks.Service

/-!
# Attestation — who created a record

A job, a schedule and a delivery carry the identity they run as, with the decision that
authorized creating them. `attest` honours it only where allow-evidence of that decision
says the same. The evidence row and the record are written by different expressions: the
row takes the delegation from the resource's attributes and then from the principal, the
record from the input, the attributes or the principal, as each path has it.

What is proved: `attest` accepts exactly what the evidence says, and every path but two
writes a record its own row attests. `enqueue` and `scheduleRecurring` drop an empty
`delegationId` from the attributes and keep it away from the record, so a delegated
caller's record says nothing of the delegation its row names. `queueWebhookDeliveries`
does not look at the delegation its context was authorized with.
-/

namespace AppPort

open Effects Effects.Platform

variable {τ : Type} [Timestamp τ]

/-! ## The creating calls -/

/-- The calls that store records with a durable principal. -/
inductive CreatingCall (τ : Type) where
  | enqueue (service : JobService τ) (input : CreateJobInput τ) (caller : PrincipalInput)
  | scheduleRecurring (service : JobService τ) (input : ScheduleRecurringInput)
      (caller : PrincipalInput)
  /-- A call on a transaction. -/
  | queue (gateway : Option ServiceGateway) (call : TransactionCall τ)
  | emitWebhookEvent (service : WebhookService) (input : EmitWebhookEventInput)
      (caller : PrincipalInput)
  | replayWebhookDelivery (service : WebhookService) (tenantId deliveryId : String)
      (caller : PrincipalInput)

/-- What a creating call resolves to. -/
inductive Creation (τ : Type) where
  | job (job : Job τ)
  | schedule (schedule : JobSchedule τ)
  | queued (went : Queued τ)
  | deliveries (deliveries : List (WebhookDelivery τ))
  | replayed (delivery : Option (WebhookDelivery τ))

/-- What a creating call runs. -/
def CreatingCall.body : CreatingCall τ → Svc τ (Creation τ)
  | .enqueue service input caller => do
    let job ← service.enqueue input caller
    pure (.job job)
  | .scheduleRecurring service input caller => do
    let schedule ← service.scheduleRecurring input caller
    pure (.schedule schedule)
  | .queue gateway call => do
    let went ← call.perform gateway
    pure (.queued went)
  | .emitWebhookEvent service input caller => do
    let deliveries ← service.emitWebhookEvent input caller
    pure (.deliveries deliveries)
  | .replayWebhookDelivery service tenantId deliveryId caller => do
    let delivery ← service.replayWebhookDelivery tenantId deliveryId caller
    pure (.replayed delivery)

/-- The durable principal of a queued record that has one. -/
def TransactionOperation.principal? : TransactionOperation τ → Option (Option DurablePrincipal)
  | .job record => some record.principal
  | .delivery record => some record.principal
  | _ => none

/-- The durable principals of the stored records. -/
def Creation.principals : Creation τ → List (Option DurablePrincipal)
  | .job record => [record.principal]
  | .schedule record => [record.principal]
  | .queued went => went.operations.filterMap TransactionOperation.principal?
  | .deliveries records => records.map fun record => record.principal
  | .replayed record => record.toList.map fun record => record.principal

/-- The world in which the creation stands: the one the call left, or, of queued records,
one that a commit of their transaction left. -/
def Creation.CommittedIn (creation : Creation τ) (left w : World τ) : Prop :=
  match creation with
  | .queued went => ∃ before operations, went.operations ⊆ operations ∧
      applyAll before operations = some w
  | _ => w = left

/-- The capabilities `executeJob` and `deliverWebhook` attest the records with. -/
def CreatingCall.capabilities : CreatingCall τ → List String
  | .enqueue _ _ _ | .scheduleRecurring _ _ _ | .queue _ (.queueJob _ _) =>
    ["jobs.create", "schedules.create"]
  | .queue _ _ | .emitWebhookEvent _ _ _ | .replayWebhookDelivery _ _ _ _ =>
    ["webhooks.emit", "webhooks.replay"]

/-- The call is authorized by this gateway. -/
def CreatingCall.AuthorizedBy (gateway : ServiceGateway) : CreatingCall τ → Prop
  | .enqueue service _ _ | .scheduleRecurring service _ _ => service.authority = some gateway
  | .queue _ call => IssuedBy gateway call.context
  | .emitWebhookEvent service _ _ | .replayWebhookDelivery service _ _ _ =>
    service.authority = some gateway

/-- The caller acts under a delegation. -/
def PrincipalInput.isDelegated : PrincipalInput → Bool
  | .object p _ => present p.delegationId
  | _ => false

/-- The record and the evidence row name the same delegation: no delegated caller passes
an empty `delegationId`, and no event is queued under a context of another delegation
than its principal's. -/
def CreatingCall.SameDelegation : CreatingCall τ → Prop
  | .enqueue _ input caller => ¬ (input.delegationId = some "" ∧ caller.isDelegated = true)
  | .scheduleRecurring _ input caller =>
    ¬ (input.delegationId = some "" ∧ caller.isDelegated = true)
  | .queue _ (.queueWebhookDeliveries _ _ context) =>
    keepPresent (ServiceGateway.effectiveDelegation context) =
      keepPresent context.principal.delegationId
  | _ => True

/-! ## What `attest` says -/

/-- In this world the gateway accepts the durable principal, unless the store rejects. -/
def Accepts (gateway : ServiceGateway) (durable : DurablePrincipal) (capabilities : List String)
    (w : World τ) : Prop :=
  (gateway.attest durable capabilities).Ensures (alone τ) w
    (fun r _ => r = .ok () ∨ ∃ message, r = .error (.other message))

/-- A row that says what the durable principal says, under the decision it names. -/
structure Vouches (gateway : ServiceGateway) (durable : DurablePrincipal)
    (capabilities : List String) (row : EffectEvidence τ) : Prop where
  decision : row.decision = .allow
  application : row.application = gateway.application
  tenantId : row.tenantId = durable.tenantId
  principalId : row.principalId = durable.principalId
  principalType : row.principalType = durable.principalType
  delegationId : row.delegationId = durable.delegationId
  capability : row.capability ∈ capabilities
  outcome : row.outcome = .started ∨ row.outcome = .succeeded
  decisionId : row.decisionId = durable.authorizedBy

omit [Timestamp τ] in
theorem attests_iff (gateway : ServiceGateway) (durable : DurablePrincipal)
    (capabilities : List String) (row : EffectEvidence τ) :
    (gateway.attests durable capabilities row = true ∧ row.decisionId = durable.authorizedBy) ↔
      Vouches gateway durable capabilities row := by
  simp only [ServiceGateway.attests, Bool.and_eq_true, Bool.or_eq_true, beq_iff_eq,
    List.contains_iff_mem]
  constructor
  · rintro ⟨⟨⟨⟨⟨⟨⟨⟨h₁, h₂⟩, h₃⟩, h₄⟩, h₅⟩, h₆⟩, h₇⟩, h₈⟩, h₉⟩
    exact ⟨h₁, h₂, h₃, h₄, h₅, h₆, h₇, h₈, h₉⟩
  · rintro ⟨h₁, h₂, h₃, h₄, h₅, h₆, h₇, h₈, h₉⟩
    exact ⟨⟨⟨⟨⟨⟨⟨⟨h₁, h₂⟩, h₃⟩, h₄⟩, h₅⟩, h₆⟩, h₇⟩, h₈⟩, h₉⟩

omit [Timestamp τ] in
theorem keepPresent_eq_some {s : Option String} {t : String} :
    keepPresent s = some t ↔ s = some t ∧ t ≠ "" := by
  unfold keepPresent present
  cases s with
  | none => simp
  | some u =>
    by_cases hu : u = ""
    · subst hu
      simp only [bne_self_eq_false, Bool.false_eq_true, if_false, Option.some.injEq, false_iff,
        not_and, not_not, reduceCtorEq]
      exact fun h => h.symm
    · have hbne : (u != "") = true := by simpa using hu
      simp only [hbne, if_true, Option.some.injEq]
      exact ⟨fun h => ⟨h, h ▸ hu⟩, fun h => h.1⟩

/-- **What `attest` answers**: it accepts where a stored row vouches for the durable
principal, and refuses everything else. -/
theorem ensures_attest (gateway : ServiceGateway) (durable : DurablePrincipal)
    (capabilities : List String) (w : World τ) :
    (gateway.attest durable capabilities).Ensures (alone τ) w (fun r _ =>
      (r = .ok () ∧ present durable.authorizedBy = true ∧
        ∃ id row, w.evidence.get id = some row ∧ Vouches gateway durable capabilities row) ∨
      (∃ message, r = .error (.other message)) ∨
      ((∃ e, r = .error (.authority e)) ∧ ¬ (present durable.authorizedBy = true ∧
        ∃ id row, w.evidence.get id = some row ∧ Vouches gateway durable capabilities row))) := by
  unfold ServiceGateway.attest
  cases hkeep : keepPresent durable.authorizedBy with
  | none =>
    refine .inr (.inr ⟨⟨_, rfl⟩, fun h => ?_⟩)
    unfold keepPresent at hkeep
    rw [if_pos h.1] at hkeep
    rw [hkeep] at h
    cases h.1
  | some decisionId =>
    obtain ⟨hauthorized, hne⟩ := keepPresent_eq_some.mp hkeep
    have hpresent : present durable.authorizedBy = true := by
      rw [hauthorized]
      simpa [present] using hne
    refine Task.Ensures.bind (S := services τ) (Q := fun r _ =>
      (∃ message, r = .error (JsError.other message)) ∨
      r = .ok (w.evidence.find (fun row => row.decisionId == some decisionId))) ?_ ?_ ?_
    · refine Task.ensures_perform ?_
      rintro w₁ res w₂ rfl ⟨choice, hexec⟩
      rcases stored_cases hexec with ⟨rfl, -⟩ | ⟨message, rfl, -⟩
      · exact .inr rfl
      · exact .inl ⟨message, rfl⟩
    · rintro rows w₁ hrows
      have hrows : rows = w.evidence.find (fun row => row.decisionId == some decisionId) := by
        rcases hrows with ⟨_, h⟩ | h
        · cases h
        · exact Except.ok.inj h
      -- the rows that are read are those under the decision
      have hany : rows.any (gateway.attests durable capabilities) = true ↔
          ∃ id row, w.evidence.get id = some row ∧ Vouches gateway durable capabilities row := by
        rw [hrows, List.any_eq_true]
        constructor
        · rintro ⟨row, hmem, hattests⟩
          obtain ⟨⟨id, hget⟩, hdecision⟩ := Table.mem_find.mp hmem
          have hsame : row.decisionId = durable.authorizedBy :=
            (beq_iff_eq.mp hdecision).trans hauthorized.symm
          exact ⟨id, row, hget, (attests_iff gateway durable capabilities row).mp ⟨hattests, hsame⟩⟩
        · rintro ⟨id, row, hget, hvouches⟩
          have hdecision : row.decisionId = some decisionId := hvouches.decisionId.trans hauthorized
          exact ⟨row, Table.mem_find.mpr ⟨⟨id, hget⟩, by simp [hdecision]⟩,
            ((attests_iff gateway durable capabilities row).mpr hvouches).1⟩
      split
      · next h => exact .inl ⟨rfl, hpresent, hany.mp h⟩
      · next h => exact .inr (.inr ⟨⟨_, rfl⟩, fun hrow => h (hany.mpr hrow.2)⟩)
    · rintro e w₁ hrows
      rcases hrows with ⟨message, h⟩ | h
      · cases h
        exact .inr (.inl ⟨message, rfl⟩)
      · cases h

/-- A durable principal is accepted where a stored row vouches for it. -/
theorem accepts_iff (gateway : ServiceGateway) (durable : DurablePrincipal)
    (capabilities : List String) (w : World τ) :
    Accepts gateway durable capabilities w ↔ present durable.authorizedBy = true ∧
      ∃ id row, w.evidence.get id = some row ∧ Vouches gateway durable capabilities row := by
  constructor
  · intro haccepts
    by_contra hnone
    -- the read goes through, and then `attest` is settled
    have hensures := ensures_attest gateway durable capabilities w
    unfold Accepts ServiceGateway.attest at haccepts
    unfold ServiceGateway.attest at hensures
    cases hkeep : keepPresent durable.authorizedBy with
    | none =>
      rw [hkeep] at haccepts
      rcases haccepts with h | ⟨message, h⟩ <;> cases h
    | some decisionId =>
      rw [hkeep] at haccepts hensures
      let rows := w.evidence.find (fun row => row.decisionId == some decisionId)
      have hread : (alone τ).answers (.authority (.findByDecision decisionId)) w (.ok rows) w :=
        ⟨.proceed, rfl⟩
      have hleft := haccepts w (.ok rows) w rfl hread
      have hright := hensures w (.ok rows) w rfl hread
      by_cases hany : rows.any (gateway.attests durable capabilities) = true
      · simp only [Task.settled_settleWith, if_pos hany, Task.pure_eq, Task.ensures_settled]
          at hright
        rcases hright with ⟨-, hrow⟩ | ⟨message, h⟩ | ⟨⟨e, h⟩, -⟩
        · exact hnone hrow
        · cases h
        · cases h
      · simp only [Task.settled_settleWith, if_neg hany] at hleft
        rcases hleft with h | ⟨message, h⟩ <;> cases h
  · intro hrow
    refine Task.Ensures.mono ?_ (ensures_attest gateway durable capabilities w)
    rintro r w' (⟨hok, -⟩ | herror | ⟨-, hnone⟩)
    · exact .inl hok
    · exact .inr herror
    · exact absurd hrow hnone

/-! ## What the rows say -/

/-- The row says what the context it was written under says, and is not of a failure. -/
structure RowOf (context : ServiceExecutionContext τ) (row : EffectEvidence τ) : Prop where
  decision : row.decision = .allow
  application : row.application = context.application
  tenantId : row.tenantId = context.tenantId
  principalId : row.principalId = context.principal.principalId
  principalType : row.principalType = context.principal.principalType
  delegationId : row.delegationId = keepPresent (ServiceGateway.effectiveDelegation context)
  capability : row.capability = context.capability
  decisionId : row.decisionId = some context.authorization.decisionId
  outcome : row.outcome = .succeeded

omit [Timestamp τ] in
theorem rowOf_completed (context : ServiceExecutionContext τ) (options : ExecuteOptions)
    (id : String) (startedAt : τ) {updates : EvidenceCompletion τ}
    (h : updates.outcome = .succeeded) :
    RowOf context ((ServiceGateway.evidenceFor context options id startedAt .started).complete
      updates) :=
  ⟨rfl, rfl, rfl, rfl, rfl, rfl, rfl, rfl, h⟩

omit [Timestamp τ] in
theorem rowOf_evidenceFor (context : ServiceExecutionContext τ) (options : ExecuteOptions)
    (id : String) (startedAt : τ) :
    RowOf context (ServiceGateway.evidenceFor context options id startedAt .succeeded) :=
  ⟨rfl, rfl, rfl, rfl, rfl, rfl, rfl, rfl, rfl⟩

omit [Timestamp τ] in
/-- **What it takes.** The row of a context vouches for a record of its principal exactly
where the two name the same delegation. -/
theorem RowOf.vouches_iff {gateway : ServiceGateway} {context : ServiceExecutionContext τ}
    {row : EffectEvidence τ} (hrow : RowOf context row) (hissued : IssuedBy gateway context)
    {capabilities : List String} (hcapability : context.capability ∈ capabilities)
    (delegationId : Option String) :
    Vouches gateway (toDurablePrincipal context.principal delegationId
      (some context.authorization.decisionId)) capabilities row ↔
    keepPresent (ServiceGateway.effectiveDelegation context) =
      keepPresent (delegationId <|> context.principal.delegationId) := by
  constructor
  · intro hvouches
    exact hrow.delegationId.symm.trans hvouches.delegationId
  · intro hsame
    have hdecision : keepPresent (some context.authorization.decisionId) =
        some context.authorization.decisionId := keepPresent_eq_some.mpr ⟨rfl, hissued.decisionId⟩
    exact {
      decision := hrow.decision
      application := hrow.application.trans hissued.application
      tenantId := hrow.tenantId.trans hissued.tenantId.symm
      principalId := hrow.principalId
      principalType := hrow.principalType
      delegationId := hrow.delegationId.trans hsame
      capability := hrow.capability ▸ hcapability
      outcome := .inr hrow.outcome
      decisionId := hrow.decisionId.trans hdecision.symm }

/-- The authorizer used the decision for one effect. -/
def DecidedOnce (durable : DurablePrincipal) (w : World τ) : Prop :=
  ∀ id row id' row', w.evidence.get id = some row → w.evidence.get id' = some row' →
    row.decisionId = durable.authorizedBy → row'.decisionId = durable.authorizedBy → row' = row

/-- The stored durable principal is accepted where the two delegations agree, and, if the
decision was used once, only there. -/
def HonouredWhen (agree : Prop) (gateway : ServiceGateway) (capabilities : List String)
    (w : World τ) (stored : Option DurablePrincipal) : Prop :=
  ∃ durable, stored = some durable ∧ (agree → Accepts gateway durable capabilities w) ∧
    (DecidedOnce durable w → Accepts gateway durable capabilities w → agree)

/-- A record of the context's principal, beside the context's row. -/
theorem RowOf.honoured {gateway : ServiceGateway} {context : ServiceExecutionContext τ}
    {id : String} {row : EffectEvidence τ} {w : World τ} (hget : w.evidence.get id = some row)
    (hrow : RowOf context row) (hissued : IssuedBy gateway context)
    {capabilities : List String} (hcapability : context.capability ∈ capabilities)
    {delegationId : Option String} {agree : Prop}
    (hagree : agree ↔ keepPresent (ServiceGateway.effectiveDelegation context) =
      keepPresent (delegationId <|> context.principal.delegationId)) :
    HonouredWhen agree gateway capabilities w (some (toDurablePrincipal context.principal
      delegationId (some context.authorization.decisionId))) := by
  have hdecision : keepPresent (some context.authorization.decisionId) =
      some context.authorization.decisionId := keepPresent_eq_some.mpr ⟨rfl, hissued.decisionId⟩
  have hpresent : present (toDurablePrincipal context.principal delegationId
      (some context.authorization.decisionId)).authorizedBy = true := by
    simpa [toDurablePrincipal, hdecision, present] using hissued.decisionId
  refine ⟨_, rfl, fun h => ?_, fun honce haccepts => ?_⟩
  · exact (accepts_iff ..).mpr ⟨hpresent, id, row, hget,
      (hrow.vouches_iff hissued hcapability delegationId).mpr (hagree.mp h)⟩
  · obtain ⟨-, id', row', hget', hvouches⟩ := (accepts_iff ..).mp haccepts
    have hmine : row.decisionId = (toDurablePrincipal context.principal delegationId
        (some context.authorization.decisionId)).authorizedBy := hrow.decisionId.trans hdecision.symm
    obtain rfl := honce id row id' row' hget hget' hmine hvouches.decisionId
    exact hagree.mpr ((hrow.vouches_iff hissued hcapability delegationId).mp hvouches)

/-! ## Jobs and schedules -/

section direct

variable {mine : Set String}

omit [Timestamp τ] in
/-- The delegation the attributes carry, where it is not empty. -/
theorem creationAttributes_delegation (type : String) (delegationId : Option String) :
    (JobService.creationAttributes type delegationId).lookup "delegationId" =
      keepPresent delegationId := by
  have hne : ("delegationId" == "jobType") = false := by decide
  unfold JobService.creationAttributes
  rw [List.lookup_cons, hne]
  cases keepPresent delegationId with
  | none => rfl
  | some d => simp

/-- The row's delegation and the record's, as `enqueue` computes them. -/
theorem creation_delegation_iff (given own : Option String) :
    keepPresent (keepPresent (given <|> own) <|> own) = keepPresent ((given <|> own) <|> own) ↔
      ¬ (given = some "" ∧ present own = true) := by
  cases given with
  | none =>
    cases own with
    | none => simp [keepPresent, present]
    | some o => by_cases ho : o = "" <;> simp [keepPresent, present, ho]
  | some g =>
    by_cases hg : g = ""
    · subst hg
      cases own with
      | none => simp [keepPresent, present]
      | some o =>
        by_cases ho : o = "" <;> simp [keepPresent, present, ho]
    · have hbne : (g != "") = true := by simpa using hg
      simp [keepPresent, present, hbne, hg]

omit [Timestamp τ] in
theorem quiet_jobAudit (type jobId tenantId principalId : String) (timestamp : τ) (success : Bool)
    (details : List (String × String)) : Task.Uses (S := services τ) quietCalls
      (JobService.jobAudit type jobId tenantId principalId timestamp success details) :=
  Task.Uses.bind (decides_randomUUID.mono decisionCalls_quiet) fun _ => Task.uses_perform rfl

theorem quiet_createJobRecord (service : JobService τ) (input : CreateJobInput τ)
    (principalId : String) (applicationId : Option String) (principal : Option VerifiedPrincipal)
    (authorizedBy : Option String) : Task.Uses (S := services τ) quietCalls
      (service.createJobRecord input principalId applicationId principal authorizedBy) := by
  unfold JobService.createJobRecord
  refine Task.Uses.bind (decides_randomUUID.mono decisionCalls_quiet) fun id => ?_
  refine Task.Uses.bind (decides_now.mono decisionCalls_quiet) fun t => ?_
  refine Task.Uses.bind (Task.uses_perform rfl) fun _ => ?_
  exact (quiet_jobAudit ..).bind fun _ => trivial

theorem yields_createJobRecord (service : JobService τ) (input : CreateJobInput τ)
    (principalId : String) (applicationId : Option String) (principal : Option VerifiedPrincipal)
    (authorizedBy : Option String) : Task.Yields (S := services τ)
      (fun job => ∃ id t, job = service.jobRecord input id t applicationId principal authorizedBy)
      (service.createJobRecord input principalId applicationId principal authorizedBy) := by
  unfold JobService.createJobRecord
  refine Task.Yields.of_bind fun id => Task.Yields.of_bind fun t => ?_
  exact Task.Yields.of_bind fun _ => Task.Yields.of_bind fun _ => ⟨id, t, rfl⟩

theorem quiet_createScheduleRecord (input : ScheduleRecurringInput) (principalId : String)
    (applicationId : Option String) (principal : Option VerifiedPrincipal)
    (authorizedBy : Option String) : Task.Uses (S := services τ) quietCalls
      (JobService.createScheduleRecord (τ := τ) input principalId applicationId principal
        authorizedBy) := by
  unfold JobService.createScheduleRecord
  refine Task.Uses.bind (decides_randomUUID.mono decisionCalls_quiet) fun id => ?_
  refine Task.Uses.bind (decides_now.mono decisionCalls_quiet) fun t => ?_
  refine Task.Uses.bind (Task.uses_settled _ _) fun next => ?_
  refine Task.Uses.bind (Task.uses_perform rfl) fun _ => Task.Uses.bind ?_ fun _ => trivial
  exact Task.Uses.bind (decides_randomUUID.mono decisionCalls_quiet) fun _ => Task.uses_perform rfl

theorem yields_createScheduleRecord (input : ScheduleRecurringInput) (principalId : String)
    (applicationId : Option String) (principal : Option VerifiedPrincipal)
    (authorizedBy : Option String) : Task.Yields (S := services τ)
      (fun schedule => ∃ id t next, schedule =
        JobService.scheduleRecord input id t next principalId applicationId principal authorizedBy)
      (JobService.createScheduleRecord (τ := τ) input principalId applicationId principal
        authorizedBy) := by
  unfold JobService.createScheduleRecord
  refine Task.Yields.of_bind fun id => Task.Yields.of_bind fun t => ?_
  refine Task.Yields.of_bind fun next => ?_
  exact Task.Yields.of_bind fun _ => Task.Yields.of_bind fun _ => ⟨id, t, next, rfl⟩

/-- A quiet effect whose value is known. -/
theorem ensures_quiet {α : Type} {t : Svc τ α} {Q : α → Prop} {id : String}
    {row : EffectEvidence τ} {w : World τ} (hid : id ∈ mine)
    (huses : Task.Uses (S := services τ) quietCalls t) (hyields : Task.Yields (S := services τ) Q t)
    (hrow : w.evidence.get id = some row) :
    t.Ensures (ownRows τ mine) w
      (fun r w' => w'.evidence.get id = some row ∧ ∀ a, r = .ok a → Q a) :=
  (ensures_row hid huses hrow).yields hyields

/-- The record of a creation that `creationAttributes` authorized. -/
theorem honoured_creation {gateway : ServiceGateway} {name type jobType tenantId : String}
    {given : Option String} {caller : VerifiedPrincipal} {context : ServiceExecutionContext τ}
    (hissued : IssuedOn gateway name (.of caller)
      { type := type, tenantId := tenantId
        attributes := JobService.creationAttributes jobType (given <|> caller.delegationId) } context)
    {options : ExecuteOptions} {w : World τ} (hrow : SucceededRow context options w)
    {capabilities : List String} (hname : name ∈ capabilities) :
    HonouredWhen (¬ (given = some "" ∧ present caller.delegationId = true)) gateway capabilities w
      ((keepPresent (some context.authorization.decisionId)).map fun by_ =>
        toDurablePrincipal caller (given <|> caller.delegationId) (some by_)) := by
  obtain ⟨hasScopes, hprincipal⟩ := hissued.principal
  obtain ⟨rfl, -⟩ := PrincipalInput.object.inj hprincipal
  obtain ⟨id, startedAt, updates, hget, houtcome⟩ := hrow
  have hdecision : keepPresent (some context.authorization.decisionId) =
      some context.authorization.decisionId := keepPresent_eq_some.mpr ⟨rfl, hissued.decisionId⟩
  rw [hdecision]
  refine RowOf.honoured hget (rowOf_completed context options id startedAt houtcome)
    hissued.toIssuedBy (hissued.capability ▸ hname) ?_
  have heffective : ServiceGateway.effectiveDelegation context =
      (keepPresent (given <|> context.principal.delegationId) <|>
        context.principal.delegationId) := by
    unfold ServiceGateway.effectiveDelegation ServiceResource.attribute
    rw [hissued.resource, creationAttributes_delegation]
  rw [heffective]
  exact (creation_delegation_iff given context.principal.delegationId).symm

theorem ensures_enqueue {gateway : ServiceGateway} {service : JobService τ}
    (hservice : service.authority = some gateway) (input : CreateJobInput τ)
    (caller : PrincipalInput) (w : World τ) :
    (service.enqueue input caller).Ensures (ownRows τ mine) w (fun r w' => ∀ job, r = .ok job →
      HonouredWhen (¬ (input.delegationId = some "" ∧ caller.isDelegated = true)) gateway
        ["jobs.create", "schedules.create"] w' job.principal) := by
  unfold JobService.enqueue
  refine Task.Ensures.bind (Task.ensures_true _ w) ?_ (fun e _ _ job h => by cases h)
  intro _ w₁ _
  refine Task.Ensures.bind (Task.ensures_true _ w₁) ?_ (fun e _ _ job h => by cases h)
  intro _ w₂ _
  rw [hservice]
  refine Task.Ensures.bind ((Task.ensures_true _ w₂).yields (yields_requireVerifiedPrincipal caller))
    ?_ (fun e _ _ job h => by cases h)
  rintro principal w₃ ⟨-, hprincipal⟩
  obtain ⟨hasScopes, rfl⟩ := hprincipal principal rfl
  refine Task.Ensures.bind (Task.ensures_true _ w₃) ?_ (fun e _ _ job h => by cases h)
  intro _ w₄ _
  refine Task.Ensures.bind (Task.ensures_true _ w₄) ?_ (fun e _ _ job h => by cases h)
  intro tenantId w₅ _
  refine Task.Ensures.mono ?_ (ensures_execute (Q := fun context (job : Job τ) => ∃ id t, job =
    service.jobRecord { input with tenantId := some tenantId } id t (some gateway.application)
      (some principal) (some context.authorization.decisionId)) ?_ w₅)
  · rintro r w' h job rfl
    obtain ⟨context, hissued, ⟨id, t, rfl⟩, hrow⟩ := h job rfl
    exact honoured_creation hissued hrow (by simp)
  · intro context tools id row w _ hid hrow
    exact ensures_quiet hid (quiet_createJobRecord ..)
      (yields_createJobRecord _ _ _ _ _ _) hrow

theorem ensures_scheduleRecurring {gateway : ServiceGateway} {service : JobService τ}
    (hservice : service.authority = some gateway) (input : ScheduleRecurringInput)
    (caller : PrincipalInput) (w : World τ) :
    (service.scheduleRecurring input caller).Ensures (ownRows τ mine) w (fun r w' =>
      ∀ schedule, r = .ok schedule →
        HonouredWhen (¬ (input.delegationId = some "" ∧ caller.isDelegated = true)) gateway
          ["jobs.create", "schedules.create"] w' schedule.principal) := by
  unfold JobService.scheduleRecurring
  refine Task.Ensures.bind (Task.ensures_true _ w) ?_ (fun e _ _ job h => by cases h)
  intro t w₁ _
  refine Task.Ensures.bind (Task.ensures_true _ w₁) ?_ (fun e _ _ job h => by cases h)
  intro _ w₂ _
  refine Task.Ensures.bind (Task.ensures_true _ w₂) ?_ (fun e _ _ job h => by cases h)
  intro _ w₃ _
  refine Task.Ensures.bind (Task.ensures_true _ w₃) ?_ (fun e _ _ job h => by cases h)
  intro _ w₄ _
  rw [hservice]
  refine Task.Ensures.bind ((Task.ensures_true _ w₄).yields (yields_requireVerifiedPrincipal caller))
    ?_ (fun e _ _ job h => by cases h)
  rintro principal w₅ ⟨-, hprincipal⟩
  obtain ⟨hasScopes, rfl⟩ := hprincipal principal rfl
  refine Task.Ensures.bind (Task.ensures_true _ w₅) ?_ (fun e _ _ job h => by cases h)
  intro _ w₆ _
  refine Task.Ensures.bind (Task.ensures_true _ w₆) ?_ (fun e _ _ job h => by cases h)
  intro tenantId w₇ _
  refine Task.Ensures.mono ?_ (ensures_execute (Q := fun context (schedule : JobSchedule τ) =>
    ∃ id t next, schedule = JobService.scheduleRecord { input with tenantId := some tenantId } id t
      next principal.principalId (some gateway.application) (some principal)
      (some context.authorization.decisionId)) ?_ w₇)
  · rintro r w' h schedule rfl
    obtain ⟨context, hissued, ⟨id, t, next, rfl⟩, hrow⟩ := h schedule rfl
    exact honoured_creation hissued hrow (by simp)
  · intro context tools id row w _ hid hrow
    exact ensures_quiet hid (quiet_createScheduleRecord ..)
      (yields_createScheduleRecord _ _ _ _ _) hrow

/-! ## Deliveries -/

omit [Timestamp τ] in
theorem quiet_audit (fields : WebhookService.AuditFields) : Task.Uses (S := services τ) quietCalls
    (WebhookService.audit (τ := τ) fields) := by
  unfold WebhookService.audit
  refine Task.Uses.bind (decides_randomUUID.mono decisionCalls_quiet) fun id => ?_
  exact Task.Uses.bind (decides_now.mono decisionCalls_quiet) fun t => Task.uses_perform rfl

omit [Timestamp τ] in
theorem quiet_emittedDeliveries (delivery : (endpointId id : String) → WebhookDelivery τ) :
    (endpoints : List (WebhookEndpoint τ)) → Task.Uses (S := services τ) quietCalls
      (WebhookService.emittedDeliveries delivery endpoints)
  | [] => trivial
  | _ :: rest => Task.Uses.bind (decides_randomUUID.mono decisionCalls_quiet) fun _ =>
    (quiet_emittedDeliveries delivery rest).bind fun _ => trivial

omit [Timestamp τ] in
theorem yields_emittedDeliveries (delivery : (endpointId id : String) → WebhookDelivery τ)
    (endpoints : List (WebhookEndpoint τ)) : Task.Yields (S := services τ)
      (fun deliveries => ∀ d ∈ deliveries, ∃ endpointId id, d = delivery endpointId id)
      (WebhookService.emittedDeliveries delivery endpoints) := by
  induction endpoints with
  | nil =>
    intro d hd
    cases hd
  | cons endpoint rest ih =>
    refine Task.Yields.of_bind fun id => Task.Yields.bind ih fun deliveries hrest => ?_
    intro d hd
    rcases List.mem_cons.mp hd with rfl | hd
    · exact ⟨endpoint.id, id, rfl⟩
    · exact hrest d hd

/-- A delivery whose delegation is left to its principal, authorized by attributes that
say nothing of one. -/
theorem honoured_delivery {gateway : ServiceGateway} {name : String}
    {resource : ServiceResource} {caller : VerifiedPrincipal} {context : ServiceExecutionContext τ}
    (hissued : IssuedOn gateway name (.of caller) resource context)
    (hattribute : resource.attribute "delegationId" = none)
    {options : ExecuteOptions} {w : World τ} (hrow : SucceededRow context options w)
    {capabilities : List String} (hname : name ∈ capabilities) :
    HonouredWhen True gateway capabilities w (some (toDurablePrincipal caller none
      (some context.authorization.decisionId))) := by
  obtain ⟨hasScopes, hprincipal⟩ := hissued.principal
  obtain ⟨rfl, -⟩ := PrincipalInput.object.inj hprincipal
  obtain ⟨id, startedAt, updates, hget, houtcome⟩ := hrow
  refine RowOf.honoured hget (rowOf_completed context options id startedAt houtcome)
    hissued.toIssuedBy (hissued.capability ▸ hname) ?_
  have heffective : ServiceGateway.effectiveDelegation context =
      (none <|> context.principal.delegationId) := by
    unfold ServiceGateway.effectiveDelegation
    rw [hissued.resource, hattribute]
  rw [heffective]
  exact ⟨fun _ => rfl, fun _ => trivial⟩

theorem ensures_emitWebhookEvent {gateway : ServiceGateway} {service : WebhookService}
    (hservice : service.authority = some gateway) (input : EmitWebhookEventInput)
    (caller : PrincipalInput) (w : World τ) :
    (service.emitWebhookEvent input caller).Ensures (ownRows τ mine) w (fun r w' =>
      ∀ deliveries : List (WebhookDelivery τ), r = .ok deliveries → ∀ d ∈ deliveries,
        HonouredWhen True gateway ["webhooks.emit", "webhooks.replay"] w' d.principal) := by
  have hgateway : service.gateway = .ok gateway := by
    unfold WebhookService.gateway
    rw [hservice]
  unfold WebhookService.emitWebhookEvent
  refine Task.Ensures.bind ((Task.ensures_true _ w).yields (yields_requireVerifiedPrincipal caller))
    ?_ (fun e _ _ ds h => by cases h)
  rintro principal w₁ ⟨-, hprincipal⟩
  obtain ⟨hasScopes, rfl⟩ := hprincipal principal rfl
  refine Task.Ensures.bind (Task.ensures_true _ w₁) ?_ (fun e _ _ ds h => by cases h)
  intro _ w₂ _
  refine Task.Ensures.bind (Task.ensures_true _ w₂) ?_ (fun e _ _ ds h => by cases h)
  intro tenantId w₃ _
  split
  · intro ds h
    cases h
  rw [hgateway]
  refine Task.Ensures.bind (Task.ensures_ofExcept _ w₃) ?_ (fun e _ _ ds h => by cases h)
  rintro gateway' w₄ ⟨hgateway', -⟩
  obtain rfl := Except.ok.inj hgateway'
  refine Task.Ensures.mono ?_ (ensures_execute (Q := fun context (ds : List (WebhookDelivery τ)) =>
    ∀ d ∈ ds, d.principal =
      some (toDurablePrincipal principal none (some context.authorization.decisionId))) ?_ w₄)
  · rintro r w' h ds rfl d hd
    obtain ⟨context, hissued, hds, hrow⟩ := h ds rfl
    rw [hds d hd]
    exact honoured_delivery hissued rfl hrow (by simp)
  · intro context tools id row w _ hid hrow
    refine ensures_quiet hid ?_ ?_ hrow
    · refine Task.Uses.bind (Task.uses_perform rfl) fun endpoints => ?_
      split
      · trivial
      refine Task.Uses.bind (decides_randomUUID.mono decisionCalls_quiet) fun eventId => ?_
      refine Task.Uses.bind (decides_now.mono decisionCalls_quiet) fun createdAt => ?_
      refine Task.Uses.bind (quiet_emittedDeliveries _ _) fun deliveries => ?_
      refine Task.Uses.bind (Task.uses_perform rfl) fun _ => ?_
      exact (Task.Uses.forEach _ fun d _ => quiet_audit _).bind fun _ => trivial
    · refine Task.Yields.of_bind fun endpoints => ?_
      split
      · intro d hd
        cases hd
      refine Task.Yields.of_bind fun eventId => Task.Yields.of_bind fun createdAt => ?_
      refine Task.Yields.bind (yields_emittedDeliveries _ _) fun deliveries hall => ?_
      refine Task.Yields.of_bind fun _ => Task.Yields.of_bind fun _ => ?_
      intro d hd
      obtain ⟨endpointId, deliveryId, rfl⟩ := hall d hd
      rfl

omit [Timestamp τ] in
/-- What an update of a delivery's principal answers with has that principal. -/
theorem updateDelivery_principal {deliveries : Table String (WebhookDelivery τ)} {id : String}
    {version : Nat} {principal : DurablePrincipal} {updated : WebhookDelivery τ}
    (h : (deliveries.updateIfVersion id version
      (WebhookService.replayUpdate principal).apply).1 = some updated) :
    updated.principal = some principal := by
  obtain ⟨r, deliveries', hwrite⟩ : ∃ r t, deliveries.updateIfVersion id version
      (WebhookService.replayUpdate principal).apply = (r, t) := ⟨_, _, rfl⟩
  rw [hwrite] at h
  rcases Table.updateIfVersion_eq hwrite with ⟨d, -, -, hd, -⟩ | ⟨hnone, -⟩
  · obtain rfl := Option.some.inj (h.symm.trans hd)
    rfl
  · cases h.symm.trans hnone

theorem ensures_replayWebhookDelivery {gateway : ServiceGateway} {service : WebhookService}
    (hservice : service.authority = some gateway) (tenantId deliveryId : String)
    (caller : PrincipalInput) (w : World τ) :
    (service.replayWebhookDelivery tenantId deliveryId caller).Ensures (ownRows τ mine) w
      (fun r w' => ∀ d : WebhookDelivery τ, r = .ok (some d) →
        HonouredWhen True gateway ["webhooks.emit", "webhooks.replay"] w' d.principal) := by
  have hgateway : service.gateway = .ok gateway := by
    unfold WebhookService.gateway
    rw [hservice]
  unfold WebhookService.replayWebhookDelivery
  refine Task.Ensures.bind ((Task.ensures_true _ w).yields (yields_requireVerifiedPrincipal caller))
    ?_ (fun e _ _ d h => by cases h)
  rintro principal w₁ ⟨-, hprincipal⟩
  obtain ⟨hasScopes, rfl⟩ := hprincipal principal rfl
  split
  · intro d h
    cases h
  refine Task.Ensures.bind (Task.ensures_true _ w₁) ?_ (fun e _ _ d h => by cases h)
  intro delivery w₂ _
  cases delivery with
  | none =>
    intro d h
    cases h
  | some delivery =>
  refine Task.Ensures.bind (Task.ensures_true _ w₂) ?_ (fun e _ _ d h => by cases h)
  intro endpoint w₃ _
  cases endpoint with
  | none =>
    intro d h
    cases h
  | some endpoint =>
  simp only
  split
  · intro d h
    cases h
  rw [hgateway]
  refine Task.Ensures.bind (Task.ensures_ofExcept _ w₃) ?_ (fun e _ _ d h => by cases h)
  rintro gateway' w₄ ⟨hgateway', -⟩
  obtain rfl := Except.ok.inj hgateway'
  split
  · intro d h
    cases h
  refine Task.Ensures.mono ?_ (ensures_execute
    (Q := fun context (updated : Option (WebhookDelivery τ)) => ∀ d, updated = some d →
      d.principal =
        some (toDurablePrincipal principal none (some context.authorization.decisionId))) ?_ w₄)
  · rintro r w' h d rfl
    obtain ⟨context, hissued, hd, hrow⟩ := h (some d) rfl
    rw [hd d rfl]
    exact honoured_delivery hissued rfl hrow (by simp)
  · intro context tools id row w _ hid hrow
    -- the update answers with the record it wrote
    refine Task.Ensures.bind (Q := fun r w' => w'.evidence.get id = some row ∧
      ∀ updated, r = .ok updated → ∀ d, updated = some d → d.principal =
        some (toDurablePrincipal principal none (some context.authorization.decisionId))) ?_ ?_ ?_
    · refine Task.ensures_perform ?_
      rintro w₅ res w₆ hbetween ⟨⟨choice, hexec⟩, -⟩
      have hsame : w₅.evidence.get id = some row := (hbetween id hid).trans hrow
      refine ⟨(congrArg (fun t => t.get id) (exec_evidence hexec rfl)).trans hsame, ?_⟩
      rintro updated rfl d rfl
      rcases stored_cases hexec with ⟨hres, -⟩ | ⟨message, hres, -⟩
      · exact updateDelivery_principal (Except.ok.inj hres).symm
      · cases hres
    · rintro updated w₅ ⟨hrow₅, hupdated⟩
      cases updated with
      | none =>
        refine ⟨hrow₅, ?_⟩
        rintro a ha d rfl
        cases ha
      | some updated =>
        refine ensures_quiet hid ((quiet_audit _).bind fun _ => trivial) ?_ hrow₅
        refine Task.Yields.of_bind fun _ => ?_
        exact hupdated (some updated) rfl
    · rintro e w₅ ⟨hrow₅, -⟩
      refine ⟨hrow₅, ?_⟩
      intro a ha
      cases ha

end direct

/-! ## Queued records -/

/-- The delegation a call on a transaction gives its records. -/
def TransactionCall.recordDelegation : TransactionCall τ → Option String
  | .queueJob _ context => ServiceGateway.effectiveDelegation context
  | .queueNotification _ _ | .queueWebhookDeliveries _ _ _ => none

/-- The call queues records that run as a principal. -/
def TransactionCall.IsRunnable : TransactionCall τ → Prop
  | .queueJob _ _ | .queueWebhookDeliveries _ _ _ => True
  | .queueNotification _ _ => False

/-- What a call on a transaction queues begins with the row of its context, and all its
records have the context's principal. -/
def QueuedUnder (call : TransactionCall τ) (went : Queued τ) : Prop :=
  went.operations = [] ∨ (call.Acceptable ∧ ∃ id t rest, went.operations =
    .evidence (ServiceGateway.evidenceFor call.context { service := "transaction" } id t .succeeded)
      :: rest ∧
    ∀ stored ∈ rest.filterMap TransactionOperation.principal?, call.IsRunnable ∧ stored =
      some (toDurablePrincipal call.context.principal call.recordDelegation
        (some call.context.authorization.decisionId)))

theorem yields_queuedUnder (gateway : Option ServiceGateway) (call : TransactionCall τ) :
    Task.Yields (S := services τ) (QueuedUnder call) (call.perform gateway) := by
  have hnothing : ∀ stored : Option DurablePrincipal,
      stored ∈ ([] : Builder τ).filterMap TransactionOperation.principal? → call.IsRunnable ∧
        stored = some (toDurablePrincipal call.context.principal call.recordDelegation
          (some call.context.authorization.decisionId)) := by
    intro stored h
    cases h
  cases call with
  | queueJob input context =>
    refine Task.Yields.bind (yields_authorizedFor_row gateway context _ _ _).attempt
      fun accepted haccepted => ?_
    cases accepted with
    | error e => exact .inl rfl
    | ok accepted =>
      obtain ⟨context', evidence⟩ := accepted
      obtain ⟨hcontext, hgrants, id, t, hevidence⟩ := haccepted _ rfl
      obtain rfl : context' = context := hcontext
      obtain rfl : evidence = _ := hevidence
      simp only
      split
      · exact .inr ⟨hgrants, id, t, [], rfl, hnothing⟩
      split
      · exact .inr ⟨hgrants, id, t, [], rfl, hnothing⟩
      refine Task.Yields.of_bind fun _ => Task.Yields.of_bind fun _ => ?_
      refine Task.Yields.of_bind fun _ => .inr ⟨hgrants, id, t, _, rfl, ?_⟩
      intro stored h
      refine ⟨trivial, ?_⟩
      simpa [TransactionOperation.principal?, queuedJob, TransactionCall.recordDelegation,
        TransactionCall.context] using h
  | queueNotification input context =>
    refine Task.Yields.bind (yields_authorizedFor_row gateway context _ _ _).attempt
      fun accepted haccepted => ?_
    cases accepted with
    | error e => exact .inl rfl
    | ok accepted =>
      obtain ⟨context', evidence⟩ := accepted
      obtain ⟨hcontext, hgrants, id, t, hevidence⟩ := haccepted _ rfl
      obtain rfl : context' = context := hcontext
      obtain rfl : evidence = _ := hevidence
      simp only
      split
      · exact .inr ⟨hgrants, id, t, [], rfl, hnothing⟩
      split
      · exact .inr ⟨hgrants, id, t, [], rfl, hnothing⟩
      refine Task.Yields.of_bind fun _ => Task.Yields.of_bind fun _ => ?_
      refine Task.Yields.of_bind fun _ => Task.Yields.of_bind fun _ => ?_
      refine .inr ⟨hgrants, id, t, _, rfl, fun stored h => ?_⟩
      simp [TransactionOperation.principal?] at h
  | queueWebhookDeliveries endpointIds event context =>
    refine Task.Yields.bind (yields_authorizedFor_row gateway context _ _ _).attempt
      fun accepted haccepted => ?_
    cases accepted with
    | error e => exact .inl rfl
    | ok accepted =>
      obtain ⟨context', evidence⟩ := accepted
      obtain ⟨hcontext, hgrants, id, t, hevidence⟩ := haccepted _ rfl
      obtain rfl : context' = context := hcontext
      obtain rfl : evidence = _ := hevidence
      simp only
      split
      · exact .inr ⟨hgrants, id, t, [], rfl, hnothing⟩
      refine Task.Yields.bind (yields_validateAndQueue endpointIds event context').attempt
        fun queued hqueued => ?_
      cases queued with
      | error e => exact .inr ⟨hgrants, id, t, [], rfl, hnothing⟩
      | ok operations =>
        obtain ⟨eventId, createdAt, targets, audit, -, -, rfl⟩ := hqueued _ rfl
        refine .inr ⟨hgrants, id, t, _, rfl, fun stored hmem => ?_⟩
        obtain ⟨op, hop, hstored⟩ := List.mem_filterMap.mp hmem
        rcases List.mem_append.mp hop with hop | hop
        · obtain ⟨target, -, rfl⟩ := List.mem_map.mp hop
          exact ⟨trivial, (Option.some.inj hstored).symm⟩
        · obtain rfl := List.mem_singleton.mp hop
          cases hstored

omit [Timestamp τ] in
/-- A queued operation overwrites no evidence row. -/
theorem apply_keeps_evidence {op : TransactionOperation τ} {w w' : World τ}
    (h : op.apply w = some w') {id : String} {row : EffectEvidence τ}
    (hget : w.evidence.get id = some row) : w'.evidence.get id = some row := by
  cases op <;> simp only [TransactionOperation.apply, Option.map_eq_some_iff] at h
  case evidence inserted =>
    obtain ⟨t, ht, rfl⟩ := h
    obtain ⟨habsent, rfl⟩ := Table.insertAbsent_eq_some ht
    have hne : id ≠ inserted.id := by
      rintro rfl
      rw [habsent] at hget
      cases hget
    exact (Table.get_put_other _ _ hne).trans hget
  case jobAudit | webhookAudit | notificationAudit =>
    cases h
    exact hget
  all_goals
    obtain ⟨t, -, rfl⟩ := h
    exact hget

omit [Timestamp τ] in
/-- A committed row stands. -/
theorem applyAll_evidence {row : EffectEvidence τ} :
    {operations : List (TransactionOperation τ)} → {w w' : World τ} →
    .evidence row ∈ operations → applyAll w operations = some w' →
    w'.evidence.get row.id = some row
  | op :: rest, w, w', hmem, h => by
    simp only [applyAll] at h
    cases hop : op.apply w with
    | none =>
      rw [hop] at h
      cases h
    | some w₁ =>
      rw [hop] at h
      rcases List.mem_cons.mp hmem with rfl | hrest
      · simp only [TransactionOperation.apply, Option.map_eq_some_iff] at hop
        obtain ⟨t, ht, rfl⟩ := hop
        obtain ⟨-, rfl⟩ := Table.insertAbsent_eq_some ht
        -- the rest of the commit leaves the row as it was inserted
        refine applyAll_rel (R := fun w w' => w.evidence.get row.id = some row →
          w'.evidence.get row.id = some row) (fun _ => id) (fun h₁ h₂ hw => h₂ (h₁ hw))
          (fun op _ w w' hop hw => apply_keeps_evidence hop hw) h ?_
        exact Table.get_put_same _ _ _
      · exact applyAll_evidence hrest h

/-- The records of an accepted call on a transaction, once they are committed. -/
theorem honoured_queued {gateway : ServiceGateway} {own : Option ServiceGateway}
    {call : TransactionCall τ} (hissued : IssuedBy gateway call.context) {went : Queued τ}
    (hqueued : QueuedUnder call went) {before w : World τ}
    {operations : List (TransactionOperation τ)} (hsubset : went.operations ⊆ operations)
    (hcommit : applyAll before operations = some w) :
    ∀ stored ∈ went.operations.filterMap TransactionOperation.principal?,
      HonouredWhen (CreatingCall.queue own call).SameDelegation gateway
        (CreatingCall.queue own call).capabilities w stored := by
  intro stored hmem
  rcases hqueued with hnone | ⟨haccepted, id, t, rest, hoperations, hrecords⟩
  · rw [hnone] at hmem
    cases hmem
  rw [hoperations] at hmem hsubset
  have hrest : stored ∈ rest.filterMap TransactionOperation.principal? := by
    simpa [TransactionOperation.principal?] using hmem
  obtain ⟨hrunnable, rfl⟩ := hrecords stored hrest
  have hget := applyAll_evidence (hsubset List.mem_cons_self) hcommit
  cases call with
  | queueJob input context =>
    obtain ⟨⟨now, hcontext⟩, -⟩ := haccepted
    obtain ⟨-, -, hcapability, -⟩ := assertExecutionContext_ok hcontext
    refine RowOf.honoured hget (rowOf_evidenceFor ..) hissued
      (by simp [TransactionCall.context, CreatingCall.capabilities, hcapability]) ?_
    -- what the record says is what the row says
    have hsame : (ServiceGateway.effectiveDelegation context <|> context.principal.delegationId) =
        ServiceGateway.effectiveDelegation context := by
      unfold ServiceGateway.effectiveDelegation
      cases context.resource.attribute "delegationId" <;> cases context.principal.delegationId <;> rfl
    exact ⟨fun _ => congrArg keepPresent hsame.symm, fun _ => trivial⟩
  | queueNotification input context =>
    exact hrunnable.elim
  | queueWebhookDeliveries endpointIds event context =>
    obtain ⟨⟨now, hcontext⟩, -⟩ := haccepted
    obtain ⟨-, -, hcapability, -⟩ := assertExecutionContext_ok hcontext
    refine RowOf.honoured hget (rowOf_evidenceFor ..) hissued
      (by simp [TransactionCall.context, CreatingCall.capabilities, hcapability]) ?_
    exact Iff.rfl

/-! ## What is attested -/

/-- **Attestation is exact**, save for the delegation. What `attest` accepts, a stored row
vouches for. Of an accepted creating call, the durable principal it stored is accepted
once its effect stands, provided the record and the row name the same delegation; and,
where the authorizer used the decision once, only then. Others may do anything meanwhile
but overwrite the rows under the ids the call drew. -/
theorem attestation_is_exact (gateway : ServiceGateway) (mine : Set String) :
    (∀ (durable : DurablePrincipal) (capabilities : List String) (w : World τ),
      (gateway.attest durable capabilities).Ensures (alone τ) w (fun r _ => r = .ok () →
        ∃ id row, w.evidence.get id = some row ∧ Vouches gateway durable capabilities row)) ∧
    ∀ call : CreatingCall τ, call.AuthorizedBy gateway → ∀ w,
      call.body.Ensures (ownRows τ mine) w (fun r left => ∀ creation, r = .ok creation →
        ∀ w', creation.CommittedIn left w' → ∀ stored ∈ creation.principals,
          HonouredWhen call.SameDelegation gateway call.capabilities w' stored) := by
  refine ⟨fun durable capabilities w => ?_, fun call hgateway w => ?_⟩
  · refine Task.Ensures.mono ?_ (ensures_attest gateway durable capabilities w)
    rintro r w' (⟨-, -, hrow⟩ | ⟨message, rfl⟩ | ⟨⟨e, rfl⟩, -⟩) hok
    · exact hrow
    · cases hok
    · cases hok
  · cases call with
    | enqueue service input caller =>
      refine Task.Ensures.bind (ensures_enqueue hgateway input caller w) ?_
        (fun e _ _ creation h => by cases h)
      rintro job left hhonoured creation h w' hcommitted stored hstored
      cases h
      obtain rfl : w' = left := hcommitted
      obtain rfl := List.mem_singleton.mp hstored
      exact hhonoured job rfl
    | scheduleRecurring service input caller =>
      refine Task.Ensures.bind (ensures_scheduleRecurring hgateway input caller w) ?_
        (fun e _ _ creation h => by cases h)
      rintro schedule left hhonoured creation h w' hcommitted stored hstored
      cases h
      obtain rfl : w' = left := hcommitted
      obtain rfl := List.mem_singleton.mp hstored
      exact hhonoured schedule rfl
    | queue own call =>
      refine Task.Ensures.bind ((Task.ensures_true _ w).yields (yields_queuedUnder own call)) ?_
        (fun e _ _ creation h => by cases h)
      rintro went left ⟨-, hqueued⟩ creation h w' hcommitted stored hstored
      cases h
      obtain ⟨before, operations, hsubset, hcommit⟩ := hcommitted
      exact honoured_queued hgateway (hqueued went rfl) hsubset hcommit stored hstored
    | emitWebhookEvent service input caller =>
      refine Task.Ensures.bind (ensures_emitWebhookEvent hgateway input caller w) ?_
        (fun e _ _ creation h => by cases h)
      rintro deliveries left hhonoured creation h w' hcommitted stored hstored
      cases h
      obtain rfl : w' = left := hcommitted
      obtain ⟨d, hd, rfl⟩ := List.mem_map.mp hstored
      exact hhonoured deliveries rfl d hd
    | replayWebhookDelivery service tenantId deliveryId caller =>
      refine Task.Ensures.bind (ensures_replayWebhookDelivery hgateway tenantId deliveryId caller w)
        ?_ (fun e _ _ creation h => by cases h)
      rintro delivery left hhonoured creation h w' hcommitted stored hstored
      cases h
      obtain rfl : w' = left := hcommitted
      obtain ⟨d, hd, rfl⟩ := List.mem_map.mp hstored
      exact hhonoured d (congrArg _ (Option.mem_toList.mp hd))

/-! ### Runs -/

/-- A creating call, or an attestation by a worker. -/
inductive AttestationEntry (τ : Type) where
  | create (call : CreatingCall τ)
  | attest (gateway : ServiceGateway) (durable : DurablePrincipal) (capabilities : List String)

/-- What each resolves to: a creation, or nothing. -/
def attestationBody : AttestationEntry τ → Svc τ (Option (Creation τ))
  | .create call => do
    let creation ← call.body
    pure (some creation)
  | .attest gateway durable capabilities => do
    gateway.attest durable capabilities
    pure none

abbrev attestationPlatform (τ : Type) [Timestamp τ] : Platform :=
  appPlatform (attestationBody (τ := τ)) fun (f : World τ → World τ) w => some (f w)

/-- Ada, acting under a delegation. -/
def delegatedAda : VerifiedPrincipal :=
  mintedPrincipal { principalId := "ada", principalType := "user", tenantId := "acme"
                    delegationId := some "delegation" } .host 0

def jobGateway : ServiceGateway := { application := "app", authorizer := true, credentials := false }

/-- Ada enqueues a report under `delegationId`, is allowed to, and the effect succeeds. -/
def adaEnqueues (delegationId : Option String) : List (attestationPlatform Nat).Action :=
  let decision : JsValue := .obj [
    ("decision_id", .str "d1"), ("allowed", .bool true), ("capability", .str "jobs.create"),
    ("tenant_id", .str "acme"), ("application_id", .str "app"),
    ("subject", .obj [("id", .str "ada")]),
    ("resource", .obj [("uri", .str "appport://app/tenants/acme/job/*")])]
  [.spawn (.create (.enqueue { authority := some jobGateway }
      { type := "report", delegationId := delegationId } (.of delegatedAda))),
    .step 0 .proceed, .step 0 (.draw "request"), .step 0 .proceed, .step 0 .proceed,
    .step 0 .proceed, .step 0 .proceed, .step 0 (.decision false (.ok decision)),
    .step 0 .proceed, .step 0 .proceed, .step 0 .proceed, .step 0 .proceed, .step 0 .proceed,
    .step 0 (.draw "row"), .step 0 .proceed, .step 0 (.draw "job"), .step 0 .proceed,
    .step 0 .proceed, .step 0 (.draw "audit"), .step 0 .proceed, .step 0 .proceed,
    .step 0 .proceed, .step 0 .proceed, .step 0 .proceed]

/-- The identity the report is stored with where the input names no other delegation. -/
def adasRecord (delegationId : Option String) : DurablePrincipal where
  principalId := "ada"
  principalType := "user"
  tenantId := "acme"
  delegationId := delegationId
  authorizedBy := some "d1"

/-- A worker attests it. -/
def attestsReport (delegationId : Option String) : List (attestationPlatform Nat).Action :=
  [.spawn (.attest jobGateway (adasRecord delegationId) ["jobs.create", "schedules.create"]),
    .step 1 .proceed]

/-- The process stored a job with this identity. -/
def storedJob (c : (attestationPlatform τ).Config) (pid : Nat) (durable : DurablePrincipal) : Bool :=
  match c.proc pid with
  | some ⟨_, .settled (.ok (some (.job record)))⟩ => decide (record.principal = some durable)
  | _ => false

/-- The attestation was denied. -/
def attestDenied (c : (attestationPlatform τ).Config) (pid : Nat) : Bool :=
  match c.proc pid with
  | some ⟨.attest _ _ _, .settled (.error (.authority e))⟩ => decide (e.code = .denied)
  | _ => false

/-- Enqueued with an empty `delegationId`, Ada's report is stored and authorized, and no
worker may run it. -/
theorem enqueue_empty_delegation :
    ∃ c, (attestationPlatform Nat).run
        (Config.init { clock := 0, verified := [delegatedAda], nextRef := 1 })
        (adaEnqueues (some "") ++ attestsReport none) = some c ∧
      storedJob c 0 (adasRecord none) = true ∧ attestDenied c 1 = true := by
  obtain ⟨c, hrun, htest⟩ : ∃ c, (attestationPlatform Nat).run
      (Config.init { clock := 0, verified := [delegatedAda], nextRef := 1 })
      (adaEnqueues (some "") ++ attestsReport none) = some c ∧
      (storedJob c 0 (adasRecord none) && attestDenied c 1) = true :=
    exists_of_run (by decide +kernel)
  exact ⟨c, hrun, Bool.and_eq_true_iff.mp htest⟩

/-- What holds of every creating call holds of the one that enqueues Ada's report. -/
theorem attestation_is_exact_enqueue :
    (CreatingCall.enqueue (τ := Nat) { authority := some jobGateway } { type := "report" }
        (.of delegatedAda)).body.Ensures (ownRows Nat {"request", "row", "job", "audit"})
      { clock := 0, verified := [delegatedAda], nextRef := 1 } (fun r left =>
        ∀ creation, r = .ok creation → ∀ w', creation.CommittedIn left w' →
          ∀ stored ∈ creation.principals,
            HonouredWhen (¬ (none = some "" ∧ present delegatedAda.delegationId = true)) jobGateway
              ["jobs.create", "schedules.create"] w' stored) :=
  (attestation_is_exact jobGateway {"request", "row", "job", "audit"}).2
    (.enqueue { authority := some jobGateway } { type := "report" } (.of delegatedAda)) rfl
    { clock := 0, verified := [delegatedAda], nextRef := 1 }

end AppPort
