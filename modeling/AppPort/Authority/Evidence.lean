import AppPort.Authority.Enforcement

/-!
# Evidence — what a completed row says of its effect

`run` records a `started` row, performs the effect and completes the row, all in one
`try`. A completion that rejects after the effect returned therefore lands in the
`catch` block, which completes the row a second time, as that of an effect that threw.

What is proved: in every run in which that second completion is not written, a row
that reads `succeeded` belongs to an effect that returned a value, a row that reads
`denied`, `provider_error` or `failed` to an effect that threw, and a row whose
completion was never written stays `started`. `lostCompletion` is the run in which it
is written.

The entry points are the gateway's and `run` under a context issued earlier. The rest
of the world changes freely between two calls, save that no other code overwrites a
row that stands.
-/

namespace AppPort

open Effects Effects.Platform

variable {τ : Type}

/-- The entry points that perform effects. -/
inductive EffectCall (τ : Type) where
  | gateway (call : GatewayCall)
  /-- `run` under a context issued earlier. -/
  | run (context : ServiceExecutionContext τ) (options : ExecuteOptions) (startedAt : τ)

/-- What each entry point runs. -/
def effectBody [Timestamp τ] : EffectCall τ → Svc τ JsValue
  | .gateway call => gatewayBody call
  | .run context options startedAt => ServiceGateway.run context options hostEffect startedAt

/-- A change of the world that overwrites no evidence row. -/
abbrev KeepsEvidence (τ : Type) :=
  { f : World τ → World τ //
    ∀ w id row, w.evidence.get id = some row → (f w).evidence.get id = some row }

abbrev effectPlatform (τ : Type) [Timestamp τ] : Platform :=
  appPlatform (effectBody (τ := τ)) fun (f : KeepsEvidence τ) w => some (f.1 w)

variable [Timestamp τ]

/-! ## What a process did -/

/-- The `started` row the step recorded. -/
def startedRow : (effectPlatform τ).Step → Option (EffectEvidence τ)
  | ⟨_, .authority (.recordEvidence row), .ok _, _, _⟩ =>
    if row.outcome = .started then some row else none
  | _ => none

/-- The effect returned a value. -/
def effectReturned : (effectPlatform τ).Step → Bool
  | ⟨_, .host (.awaitEffect _), .ok _, _, _⟩ => true
  | _ => false

/-- The effect threw. -/
def effectThrew : (effectPlatform τ).Step → Bool
  | ⟨_, .host (.awaitEffect _), .error _, _, _⟩ => true
  | _ => false

/-- The step begins a completion: it reads the credential references to name in it. -/
def beginsCompletion : (effectPlatform τ).Step → Bool
  | ⟨_, .authority (.resolvedRefs _), _, _, _⟩ => true
  | _ => false

/-- The step overwrites an evidence row. -/
def completesRow : (effectPlatform τ).Step → Bool
  | ⟨_, .authority (.putEvidence _ _), _, _, _⟩ => true
  | _ => false

/-- How many completions a process has begun. -/
def completionsBegun (own : List (effectPlatform τ).Step) : Nat := own.countP beginsCompletion

/-- An outcome of an effect that threw. -/
def EffectOutcome.isFailure : EffectOutcome → Bool
  | .failed | .providerError | .denied => true
  | .started | .succeeded => false

theorem failureOutcome_isFailure (e : JsError) :
    (ServiceGateway.failureOutcome e).isFailure = true := by
  unfold ServiceGateway.failureOutcome
  split <;> rfl

/-- The row a process recorded says what became of its effect. -/
structure Truthful (own : List (effectPlatform τ).Step) (row : EffectEvidence τ) : Prop where
  succeeded : row.outcome = .succeeded → own.any effectReturned = true
  failed : row.outcome.isFailure = true → own.any effectThrew = true
  /-- An effect that returned is never reported as a failure. -/
  returned : own.any effectReturned = true → row.outcome.isFailure = false
  /-- Where no completion was written the outcome is unknown. -/
  unwritten : (∀ step ∈ own, completesRow step = true → step.after.evidence = step.before.evidence) →
    row.outcome = .started

/-- Every row an effect was started under is stored and says what became of it. -/
def EvidenceTruthful (w : World τ) (past : (effectPlatform τ).History) : Prop :=
  ∀ pid, ∀ step ∈ ownSteps pid past, ∀ row, startedRow step = some row →
    ∃ row', w.evidence.get row.id = some row' ∧ Truthful (ownSteps pid past) row'

/-- The condition: where the effect returned and the process has begun a second
completion, because the first one rejected, no row is written any more. -/
def SecondCompletionLost (older : (effectPlatform τ).History) : (effectPlatform τ).Event → Prop
  | .ran pid step => completesRow step = true → (ownSteps pid older).any effectReturned = true →
      2 ≤ completionsBegun (ownSteps pid older) → step.after.evidence = step.before.evidence
  | .stopped _ _ => True

/-! ## The discipline -/

/-- Where a process stands between the row it recorded and its completion. -/
inductive EffectPhase where
  /-- No row yet. -/
  | idle
  | running (id : String)
  | returned (id : String) (completions : Nat)
  | threw (id : String)

/-- Reading leaves the phase alone, but a completion begins by reading. -/
def EffectPhase.reading (ph : EffectPhase) (op : AuthorityOp τ) : EffectPhase :=
  match ph, op with
  | .returned id n, .resolvedRefs _ => .returned id (n + 1)
  | ph, _ => ph

/-- What a process may do from each phase. -/
inductive EffectStep : EffectPhase → (effectPlatform τ).Step → EffectPhase → Prop
  | reads (ph : EffectPhase) (call : EffectCall τ) (op : AuthorityOp τ)
      (res : Except JsError (op.Out τ)) (before after : World τ) (h : op.writesEvidence = false) :
      EffectStep ph ⟨call, .authority op, res, before, after⟩ (ph.reading op)
  | refused (call : EffectCall τ) (row : EffectEvidence τ) (res : Except JsError Unit)
      (before after : World τ) (h : row.outcome = .denied) :
      EffectStep .idle ⟨call, .authority (.recordEvidence row), res, before, after⟩ .idle
  | unrecorded (call : EffectCall τ) (row : EffectEvidence τ) (e : JsError) (before after : World τ) :
      EffectStep .idle ⟨call, .authority (.recordEvidence row), .error e, before, after⟩ .idle
  | recorded (call : EffectCall τ) (row : EffectEvidence τ) (before after : World τ)
      (h : row.outcome = .started) :
      EffectStep .idle ⟨call, .authority (.recordEvidence row), .ok (), before, after⟩
        (.running row.id)
  | starts (id : String) (call : EffectCall τ) (context : ServiceExecutionContext τ)
      (res : Except JsError Unit) (before after : World τ) :
      EffectStep (.running id) ⟨call, .host (.startEffect context), res, before, after⟩ (.running id)
  | returns (id : String) (call : EffectCall τ) (context : ServiceExecutionContext τ) (v : JsValue)
      (before after : World τ) :
      EffectStep (.running id) ⟨call, .host (.awaitEffect context), .ok v, before, after⟩
        (.returned id 0)
  | throws (id : String) (call : EffectCall τ) (context : ServiceExecutionContext τ) (e : JsError)
      (before after : World τ) :
      EffectStep (.running id) ⟨call, .host (.awaitEffect context), .error e, before, after⟩ (.threw id)
  | succeeds (id : String) (call : EffectCall τ) (row : EffectEvidence τ) (res : Except JsError Unit)
      (before after : World τ) (h : row.outcome = .succeeded) :
      EffectStep (.returned id 1) ⟨call, .authority (.putEvidence id row), res, before, after⟩
        (.returned id 1)
  | relabels (id : String) (n : Nat) (call : EffectCall τ) (row : EffectEvidence τ)
      (res : Except JsError Unit) (before after : World τ) :
      EffectStep (.returned id (n + 2)) ⟨call, .authority (.putEvidence id row), res, before, after⟩
        (.returned id (n + 2))
  | fails (id : String) (call : EffectCall τ) (row : EffectEvidence τ) (res : Except JsError Unit)
      (before after : World τ) (h : row.outcome.isFailure = true) :
      EffectStep (.threw id) ⟨call, .authority (.putEvidence id row), res, before, after⟩ (.threw id)

/-- The discipline of effects and their rows. -/
abbrev effectProtocol (τ : Type) [Timestamp τ] : Discipline (effectPlatform τ) where
  Phase := EffectPhase
  start _ := .idle
  next := EffectStep
  final _ _ _ := True

/-! ## The gateway keeps to it -/

section conformance

variable {α : Type} {call : EffectCall τ}

omit [Timestamp τ] in
/-- Reading the clock, a brand or a row. -/
theorem reading_other (ph : EffectPhase) {op : AuthorityOp τ} (h : ∀ run, op ≠ .resolvedRefs run) :
    ph.reading op = ph := by
  unfold EffectPhase.reading
  split
  · next run => exact absurd rfl (h run)
  · rfl

theorem conforms_read {op : AuthorityOp τ} (hop : op.writesEvidence = false) (ph : EffectPhase) :
    (effectProtocol τ).Conforms call op.perform ph (fun _ ph' => ph' = ph.reading op) := by
  intro choice before res after _
  exact ⟨_, .reads ph call op res before after hop, rfl⟩

/-- Before it records a row a process only decides. -/
theorem conforms_decides {t : Svc τ α} (ht : Task.Uses (S := services τ) decisionCalls t) :
    (effectProtocol τ).Conforms call t .idle (fun _ ph' => ph' = .idle) := by
  refine Discipline.Conforms.of_idle (ht.mono ?_)
  rintro op ⟨o, rfl, ho⟩ choice before res after _
  exact .reads .idle call o res before after ho

/-- The clock does not move the phase, and does not reject. -/
theorem conforms_clock (ph : EffectPhase) :
    (effectProtocol τ).Conforms call (now (τ := τ)) ph (fun r ph' => ph' = ph ∧ ∃ t, r = .ok t) := by
  intro choice before res after hexec
  have hph : ph.reading (.now : AuthorityOp τ) = ph := reading_other ph (fun _ h => by cases h)
  refine ⟨ph, ?_, rfl, _, (computed_ok hexec).1⟩
  rw [← hph]
  simpa only [hph] using EffectStep.reads ph call (.now : AuthorityOp τ) res before after rfl

/-- Completing a row, from a phase that allows its outcome to be written. -/
theorem conforms_complete {id : String} {u : EvidenceCompletion τ} {ph : EffectPhase}
    (hput : ∀ (row : EffectEvidence τ) res before after, row.outcome = u.outcome →
      EffectStep ph ⟨call, .authority (.putEvidence id row), res, before, after⟩ ph) :
    (effectProtocol τ).Conforms call (ServiceGateway.completeEvidence id u) ph
      (fun _ ph' => ph' = ph) := by
  unfold ServiceGateway.completeEvidence
  have hget : ph.reading (.getEvidence id : AuthorityOp τ) = ph := reading_other ph fun _ h => by cases h
  refine Discipline.Conforms.bind (D := effectProtocol τ) (Q := fun _ ph' => ph' = ph) rfl ?_
    (fun _ _ h => h)
  rintro - ph' rfl
  refine Discipline.Conforms.bind (conforms_read rfl ph') ?_ (fun _ _ h => h.trans hget)
  rintro current ph'' rfl
  rw [hget]
  split
  · exact rfl
  · intro choice before res after _
    exact ⟨ph', hput _ res before after rfl, rfl⟩

/-- A completion as `run` makes it: the references first, then the time, then the row. -/
theorem conforms_completing {id run : String} {u : List String → τ → EvidenceCompletion τ}
    {ph ph' : EffectPhase} {f : Svc τ Unit → Svc τ α} {R : Except JsError α → EffectPhase → Prop}
    (hrefs : ph.reading (.resolvedRefs run : AuthorityOp τ) = ph')
    (hf : ∀ refs t, (effectProtocol τ).Conforms call
      (f (ServiceGateway.completeEvidence id (u refs t))) ph' R) :
    (effectProtocol τ).Conforms call (do
      let refs : List String ← (AuthorityOp.resolvedRefs run).perform
      let completedAt ← now
      f (ServiceGateway.completeEvidence id (u refs completedAt))) ph R := by
  refine Discipline.Conforms.bind (D := effectProtocol τ)
    (Q := fun r ph'' => ph'' = ph' ∧ ∃ refs, r = .ok refs) ?_ ?_ ?_
  · intro choice before res after hexec
    refine ⟨ph', ?_, rfl, _, (computed_ok hexec).1⟩
    rw [← hrefs]
    exact .reads ph call (.resolvedRefs run) res before after rfl
  · rintro refs ph'' ⟨rfl, -⟩
    refine Discipline.Conforms.bind (conforms_clock ph'') ?_ ?_
    · rintro t ph₁ ⟨rfl, -⟩
      exact hf refs t
    · rintro e ph₁ ⟨-, t, ht⟩
      cases ht
  · rintro e ph'' ⟨-, refs, hrefs'⟩
    cases hrefs'

/-- The effect of the host: it returns or it throws. -/
theorem conforms_hostEffect {id : String} {context : ServiceExecutionContext τ}
    {tools : EffectTools τ} :
    (effectProtocol τ).Conforms call (hostEffect context tools) (.running id)
      (fun r ph' => match r with
        | .ok _ => ph' = .returned id 0
        | .error _ => ph' = .threw id) := by
  unfold hostEffect
  refine Discipline.Conforms.bind (D := effectProtocol τ)
    (Q := fun r ph' => ph' = .running id ∧ r = .ok ()) ?_ ?_ ?_
  · intro choice before res after hexec
    exact ⟨_, .starts id call context res before after, rfl, (computed_ok hexec).1⟩
  · rintro - ph' ⟨rfl, -⟩
    intro choice before res after _
    cases res with
    | ok v => exact ⟨_, .returns id call context v before after, rfl⟩
    | error e => exact ⟨_, .throws id call context e before after, rfl⟩
  · rintro e ph' ⟨-, he⟩
    cases he

/-- What follows the `started` row. -/
theorem conforms_perform_effect {context : ServiceExecutionContext τ} {options : ExecuteOptions}
    {id : String} :
    (effectProtocol τ).Conforms call (ServiceGateway.perform context options id hostEffect)
      (.running id) (fun _ _ => True) := by
  unfold ServiceGateway.perform
  -- an error is the effect's own, or that of the completion of an effect that returned
  refine Discipline.Conforms.tryCatch (D := effectProtocol τ) (Q := fun r ph' => match r with
    | .ok _ => True
    | .error _ => ph' = .threw id ∨ ph' = .returned id 1) ?_ (fun _ _ _ => trivial) ?_
  · refine Discipline.Conforms.bind conforms_hostEffect ?_ (fun _ _ h => .inl h)
    rintro result ph' rfl
    have hrefs : (EffectPhase.returned id 0).reading (.resolvedRefs id : AuthorityOp τ) =
        .returned id 1 := rfl
    refine conforms_completing (f := fun t => t.bind fun _ => pure result)
      (u := fun refs t => { outcome := .succeeded
                            completedAt := t
                            credentialRef := ServiceGateway.refUpdate options refs }) hrefs ?_
    intro refs t
    refine Discipline.Conforms.bind (conforms_complete ?_) (fun _ _ _ => trivial) (fun _ _ h => .inr h)
    intro row res before after hrow
    exact .succeeds id call row res before after hrow
  · intro error ph' herror
    have hcomplete : ∀ {ph₁ ph₂ : EffectPhase},
        (∀ (row : EffectEvidence τ) res before after, row.outcome.isFailure = true →
          EffectStep ph₂ ⟨call, .authority (.putEvidence id row), res, before, after⟩ ph₂) →
        ph₁.reading (.resolvedRefs id : AuthorityOp τ) = ph₂ →
        (effectProtocol τ).Conforms call (do
          let refs : List String ← (AuthorityOp.resolvedRefs id).perform
          let completedAt ← now
          Task.ignore (ServiceGateway.completeEvidence id
            { outcome := ServiceGateway.failureOutcome error
              completedAt
              failureCode := some ((error.code?.map ServiceFailureCode.text).getD "EFFECT_FAILED")
              credentialRef := ServiceGateway.refUpdate options refs })
          throw error) ph₁ (fun (_ : Except JsError JsValue) _ => True) := by
      intro ph₁ ph₂ hput hrefs
      refine conforms_completing (f := fun t => t.ignore.bind fun _ => throw error)
        (u := fun refs t => { outcome := ServiceGateway.failureOutcome error
                              completedAt := t
                              failureCode := some ((error.code?.map ServiceFailureCode.text).getD "EFFECT_FAILED")
                              credentialRef := ServiceGateway.refUpdate options refs }) hrefs ?_
      intro refs t
      refine Discipline.Conforms.bind (Discipline.Conforms.ignore (Q := fun _ => True)
        (Discipline.Conforms.mono (fun _ _ _ => trivial) (conforms_complete ?_)))
        (fun _ _ _ => trivial) (fun _ _ _ => trivial)
      intro row res before after hrow
      refine hput row res before after ?_
      rw [hrow]
      exact failureOutcome_isFailure error
    rcases herror with rfl | rfl
    · exact hcomplete (fun row res before after => .fails id call row res before after) rfl
    · exact hcomplete (fun row res before after _ => .relabels id 0 call row res before after) rfl

theorem conforms_run_effect (context : ServiceExecutionContext τ) (options : ExecuteOptions)
    (startedAt : τ) :
    (effectProtocol τ).Conforms call (ServiceGateway.run context options hostEffect startedAt) .idle
      (fun _ _ => True) := by
  unfold ServiceGateway.run
  refine Discipline.Conforms.bind (conforms_decides decides_now) ?_ (fun _ _ _ => trivial)
  rintro at_ - rfl
  refine Discipline.Conforms.bind (conforms_decides (AuthorityOp.decides rfl)) ?_ (fun _ _ _ => trivial)
  rintro issued - rfl
  refine Discipline.Conforms.bind (conforms_decides (Task.uses_settled _ _)) ?_ (fun _ _ _ => trivial)
  rintro context' - rfl
  refine Discipline.Conforms.bind (conforms_decides decides_randomUUID) ?_ (fun _ _ _ => trivial)
  rintro evidenceId - rfl
  -- the row is recorded, or the call rejects and nothing runs
  intro choice before res after _
  cases res with
  | ok u => exact ⟨_, .recorded call _ before after rfl, conforms_perform_effect⟩
  | error e => exact ⟨_, .unrecorded call _ e before after, trivial⟩

theorem conforms_recordRefusal (gateway : ServiceGateway) (name : String) (input : PrincipalInput)
    (resource : ServiceResource) (options : ExecuteOptions) (requestId : String) (startedAt : τ)
    (error : JsError) :
    (effectProtocol τ).Conforms call
      (gateway.recordRefusal name input resource options requestId startedAt error) .idle
      (fun _ ph' => ph' = .idle) := by
  unfold ServiceGateway.recordRefusal
  split
  · split
    · exact rfl
    · refine Discipline.Conforms.bind (conforms_decides decides_randomUUID) ?_ (fun _ _ h => h)
      rintro id - rfl
      refine Discipline.Conforms.bind (conforms_decides decides_now) ?_ (fun _ _ h => h)
      rintro completedAt - rfl
      refine Discipline.Conforms.mono (fun _ _ h => h.2) (Discipline.Conforms.ignore
        (D := effectProtocol τ) (Q := fun ph' => ph' = .idle) ?_)
      intro choice before res after _
      exact ⟨_, .refused call _ res before after rfl, rfl⟩
  · exact rfl

/-- Every entry point keeps to the discipline. -/
theorem effectProtocol_obeyed : (effectProtocol τ).Obeyed := by
  intro call
  have hdone : ∀ {t : Svc τ JsValue}, Task.Uses (S := services τ) decisionCalls t →
      (effectProtocol τ).Conforms call t .idle (fun _ _ => True) := fun ht =>
    Discipline.Conforms.mono (fun _ _ _ => trivial) (conforms_decides ht)
  cases call with
  | run context options startedAt => exact conforms_run_effect context options startedAt
  | gateway call =>
    cases call with
    | authenticate claims verifiedBy =>
      exact hdone ((decides_mintVerifiedPrincipal _ _).bind fun _ => trivial)
    | identify gateway claims => exact hdone ((gateway.decides_identify claims).bind fun _ => trivial)
    | execute gateway name input resource options =>
      change (effectProtocol τ).Conforms _ (gateway.execute name input resource options hostEffect) _ _
      unfold ServiceGateway.execute
      refine Discipline.Conforms.bind (conforms_decides (ServiceGateway.decides_requestIdOf _)) ?_
        (fun _ _ _ => trivial)
      rintro requestId - rfl
      refine Discipline.Conforms.bind (conforms_decides decides_now) ?_ (fun _ _ _ => trivial)
      rintro startedAt - rfl
      refine Discipline.Conforms.bind (D := effectProtocol τ) (Q := fun _ ph' => ph' = .idle) ?_ ?_
        (fun _ _ _ => trivial)
      · refine Discipline.Conforms.tryCatch
          (conforms_decides (gateway.decides_authorize name input resource requestId))
          (fun _ _ h => h) ?_
        rintro error - rfl
        exact Discipline.Conforms.bind (conforms_recordRefusal ..) (fun _ _ h => h) (fun _ _ h => h)
      · rintro context - rfl
        exact conforms_run_effect context options startedAt

end conformance

/-! ## What a step does to the rows -/

/-- Reading leaves every row as it is. -/
theorem exec_reads {op : AuthorityOp τ} {choice : Choice} {w w' : World τ}
    {res : Except JsError (op.Out τ)} (h : op.exec choice w = some (res, w'))
    (hop : op.writesEvidence = false) : w'.evidence = w.evidence := by
  cases op with
  | recordEvidence | putEvidence => cases hop
  | now | isVerified | hasBinding | isIssued | mint | issue | consume | pushRef | resolvedRefs
  | bindCredential | keyMemory =>
    rw [(computed_ok h).2]
  | uuid => rw [(AuthorityOp.exec_uuid h).1]
  | randomBytes => rw [AuthorityOp.exec_randomBytes h]
  | authorize =>
    simp only [AuthorityOp.exec] at h
    split at h
    · cases h
      rfl
    · cases h
  | checkCredential =>
    simp only [AuthorityOp.exec] at h
    split at h
    · rcases stored_cases h with ⟨-, rfl⟩ | ⟨_, -, rfl | rfl⟩ <;> rfl
    · rw [(computed_ok h).2]
  | getEvidence | findByDecision | listKeyAudit =>
    rcases stored_cases h with ⟨-, rfl⟩ | ⟨_, -, rfl | rfl⟩ <;> rfl

/-- Recording adds a row under an absent id, or changes nothing. -/
theorem exec_records {row : EffectEvidence τ} {choice : Choice} {w w' : World τ}
    {res : Except JsError Unit} (h : (AuthorityOp.recordEvidence row).exec choice w = some (res, w')) :
    (w'.evidence = w.evidence ∧ res ≠ .ok ()) ∨
      (w.evidence.get row.id = none ∧ w'.evidence = w.evidence.put row.id row) := by
  simp only [AuthorityOp.exec] at h
  split at h
  · cases hev : w.evidence.insertAbsent row.id row with
    | none =>
      rw [hev] at h
      rcases stored_cases h with ⟨rfl, rfl⟩ | ⟨_, rfl, rfl | rfl⟩ <;>
        exact .inl ⟨rfl, fun he => by cases he⟩
    | some evidence =>
      rw [hev] at h
      obtain ⟨habsent, hput⟩ := Table.insertAbsent_eq_some hev
      rcases stored_cases h with ⟨rfl, rfl⟩ | ⟨_, rfl, rfl | rfl⟩
      · exact .inr ⟨habsent, hput⟩
      · exact .inr ⟨habsent, hput⟩
      · exact .inl ⟨rfl, fun he => by cases he⟩
  · obtain ⟨r, hr, heq⟩ := Option.map_eq_some_iff.mp h
    cases heq
    rw [(computed_ok hr).2]
    exact .inl ⟨rfl, fun he => by cases he⟩

/-- Completing overwrites the row, or changes nothing. -/
theorem exec_completes {id : String} {row : EffectEvidence τ} {choice : Choice} {w w' : World τ}
    {res : Except JsError Unit} (h : (AuthorityOp.putEvidence id row).exec choice w = some (res, w')) :
    w'.evidence = w.evidence ∨ w'.evidence = w.evidence.put id row := by
  rcases stored_cases h with ⟨-, rfl⟩ | ⟨_, -, rfl | rfl⟩
  · exact .inr rfl
  · exact .inr rfl
  · exact .inl rfl

/-- Code of the host leaves every row as it is. -/
theorem host_evidence {op : HostOp τ} {choice : Choice} {w w' : World τ}
    {res : Except JsError (op.Out τ)} (h : (AppOp.host op).exec choice w = some (res, w')) :
    w'.evidence = w.evidence := by
  rw [HostOp.exec_world h]

/-- What a step does to the evidence table: nothing, or it adds the row of a process
that had none, or it overwrites the row its process recorded. -/
theorem EffectStep.evidence {ph ph' : EffectPhase} {step : (effectPlatform τ).Step} {choice : Choice}
    (h : EffectStep ph step ph')
    (hexec : AppOp.exec step.op choice step.before = some (step.res, step.after)) :
    step.after.evidence = step.before.evidence ∨
    (∃ row, ph = .idle ∧ step.before.evidence.get row.id = none ∧
      step.after.evidence = step.before.evidence.put row.id row) ∨
    ∃ id row, step.op = .authority (.putEvidence id row) ∧
      step.after.evidence = step.before.evidence.put id row ∧
      ((ph = .returned id 1 ∧ row.outcome = .succeeded) ∨ (∃ n, ph = .returned id (n + 2)) ∨
        (ph = .threw id ∧ row.outcome.isFailure = true)) := by
  cases h with
  | reads _ _ _ _ _ _ hop => exact .inl (exec_reads hexec hop)
  | refused call row | unrecorded call row | recorded call row =>
    rcases exec_records hexec with ⟨hsame, -⟩ | ⟨habsent, hput⟩
    · exact .inl hsame
    · exact .inr (.inl ⟨row, rfl, habsent, hput⟩)
  | starts | returns | throws => exact .inl (host_evidence hexec)
  | succeeds id call row res before after hrow =>
    rcases exec_completes hexec with hsame | hput
    · exact .inl hsame
    · exact .inr (.inr ⟨id, row, rfl, hput, .inl ⟨rfl, hrow⟩⟩)
  | relabels id n call row =>
    rcases exec_completes hexec with hsame | hput
    · exact .inl hsame
    · exact .inr (.inr ⟨id, row, rfl, hput, .inr (.inl ⟨n, rfl⟩)⟩)
  | fails id call row res before after hrow =>
    rcases exec_completes hexec with hsame | hput
    · exact .inl hsame
    · exact .inr (.inr ⟨id, row, rfl, hput, .inr (.inr ⟨rfl, hrow⟩)⟩)

/-! ## The invariant -/

/-- The process recorded one `started` row, under `id`. -/
def Opened (own : List (effectPlatform τ).Step) (id : String) : Prop :=
  (∃ step ∈ own, ∃ row, startedRow step = some row ∧ row.id = id) ∧
  ∀ step ∈ own, ∀ row, startedRow step = some row → row.id = id

/-- What a process that stands in a phase did. -/
def EffectSound (own : List (effectPlatform τ).Step) : EffectPhase → Prop
  | .idle => (∀ step ∈ own, startedRow step = none) ∧ own.any effectReturned = false ∧
      own.any effectThrew = false
  | .running id => Opened own id ∧ own.any effectReturned = false ∧ own.any effectThrew = false
  | .returned id n => Opened own id ∧ own.any effectReturned = true ∧
      own.any effectThrew = false ∧ n ≤ completionsBegun own
  | .threw id => Opened own id ∧ own.any effectReturned = false ∧ own.any effectThrew = true

/-- No two processes recorded a row under one id. -/
def RowsOwned (past : (effectPlatform τ).History) : Prop :=
  ∀ pid pid', ∀ step ∈ ownSteps pid past, ∀ step' ∈ ownSteps pid' past, ∀ row row',
    startedRow step = some row → startedRow step' = some row' → row.id = row'.id → pid = pid'

/-- A step that opens nothing and settles no effect says nothing new. -/
structure Unremarkable (step : (effectPlatform τ).Step) : Prop where
  row : startedRow step = none
  returned : effectReturned step = false
  threw : effectThrew step = false

theorem Opened.cons {own : List (effectPlatform τ).Step} {id : String} (h : Opened own id)
    {step : (effectPlatform τ).Step} (hrow : startedRow step = none) : Opened (step :: own) id := by
  obtain ⟨⟨st, hst, hopen⟩, hall⟩ := h
  refine ⟨⟨st, List.mem_cons_of_mem _ hst, hopen⟩, fun st' hst' row hr => ?_⟩
  rcases List.mem_cons.mp hst' with rfl | hst'
  · rw [hrow] at hr
    cases hr
  · exact hall st' hst' row hr

theorem completionsBegun_le (own : List (effectPlatform τ).Step) (step : (effectPlatform τ).Step) :
    completionsBegun own ≤ completionsBegun (step :: own) := by
  unfold completionsBegun
  rw [List.countP_cons]
  omega

theorem EffectSound.cons {own : List (effectPlatform τ).Step} {ph : EffectPhase}
    (h : EffectSound own ph) {step : (effectPlatform τ).Step} (hs : Unremarkable step) :
    EffectSound (step :: own) ph := by
  have hret : (step :: own).any effectReturned = own.any effectReturned := by
    rw [List.any_cons, hs.returned, Bool.false_or]
  have hthrew : (step :: own).any effectThrew = own.any effectThrew := by
    rw [List.any_cons, hs.threw, Bool.false_or]
  cases ph with
  | idle =>
    refine ⟨fun st hst => ?_, hret.trans h.2.1, hthrew.trans h.2.2⟩
    rcases List.mem_cons.mp hst with rfl | hst
    · exact hs.row
    · exact h.1 st hst
  | running id => exact ⟨h.1.cons hs.row, hret.trans h.2.1, hthrew.trans h.2.2⟩
  | returned id n =>
    exact ⟨h.1.cons hs.row, hret.trans h.2.1, hthrew.trans h.2.2.1,
      h.2.2.2.trans (completionsBegun_le own step)⟩
  | threw id => exact ⟨h.1.cons hs.row, hret.trans h.2.1, hthrew.trans h.2.2⟩

/-- What a process did and where it stands move together. -/
theorem EffectStep.sound {ph ph' : EffectPhase} {step : (effectPlatform τ).Step}
    (h : EffectStep ph step ph') {own : List (effectPlatform τ).Step} (hown : EffectSound own ph) :
    EffectSound (step :: own) ph' := by
  cases h with
  | reads _ call op res before after hop =>
    have hs : Unremarkable (⟨call, .authority op, res, before, after⟩ : (effectPlatform τ).Step) := by
      cases op with
      | recordEvidence | putEvidence => cases hop
      | _ => exact ⟨rfl, rfl, rfl⟩
    have hcons := hown.cons hs
    unfold EffectPhase.reading
    split
    · next id n run =>
      -- one more completion has begun
      obtain ⟨hopen, hret, hthrew, -⟩ := hcons
      refine ⟨hopen, hret, hthrew, ?_⟩
      have hbegun := hown.2.2.2
      unfold completionsBegun at hbegun ⊢
      rw [List.countP_cons_of_pos rfl]
      omega
    · exact hcons
  | refused call row res before after hrow =>
    refine hown.cons ⟨?_, rfl, rfl⟩
    cases res <;> simp [startedRow, hrow]
  | unrecorded => exact hown.cons ⟨rfl, rfl, rfl⟩
  | recorded call row before after hrow =>
    obtain ⟨hnone, hret, hthrew⟩ := hown
    have hopened : startedRow (⟨call, .authority (.recordEvidence row), .ok (), before, after⟩ :
        (effectPlatform τ).Step) = some row := if_pos hrow
    refine ⟨⟨⟨_, List.mem_cons_self, row, hopened, rfl⟩, fun st hst row' hr => ?_⟩, hret, hthrew⟩
    rcases List.mem_cons.mp hst with rfl | hst
    · rw [hopened] at hr
      cases hr
      rfl
    · rw [hnone st hst] at hr
      cases hr
  | starts => exact hown.cons ⟨rfl, rfl, rfl⟩
  | returns => exact ⟨hown.1.cons rfl, rfl, hown.2.2, Nat.zero_le _⟩
  | throws => exact ⟨hown.1.cons rfl, hown.2.1, rfl⟩
  | succeeds | relabels | fails => exact hown.cons ⟨rfl, rfl, rfl⟩

theorem startedRow_eq {step : (effectPlatform τ).Step} {row : EffectEvidence τ}
    (h : startedRow step = some row) :
    ∃ call before after, step = ⟨call, .authority (.recordEvidence row), .ok (), before, after⟩ ∧
      row.outcome = .started := by
  unfold startedRow at h
  split at h
  · next call row' u before after =>
    split at h
    · next hrow =>
      obtain rfl := Option.some.inj h
      exact ⟨call, before, after, rfl, hrow⟩
    · cases h
  · cases h

/-- An effect returns while it runs. -/
theorem EffectStep.running_of_returned {ph ph' : EffectPhase} {step : (effectPlatform τ).Step}
    (h : EffectStep ph step ph') (hret : effectReturned step = true) : ∃ id, ph = .running id := by
  cases h with
  | reads | refused | unrecorded | recorded | starts | throws | succeeds | relabels | fails => cases hret
  | returns id => exact ⟨id, rfl⟩

/-- A row that was just recorded. -/
theorem truthful_of_started {own : List (effectPlatform τ).Step} {row : EffectEvidence τ}
    (h : row.outcome = .started) : Truthful own row where
  succeeded hs := by rw [h] at hs; cases hs
  failed hf := by rw [h] at hf; cases hf
  returned _ := by rw [h]; rfl
  unwritten _ := h

/-- A row nobody touched stays as truthful as it was. -/
theorem Truthful.cons {own : List (effectPlatform τ).Step} {row : EffectEvidence τ}
    (h : Truthful own row) {step : (effectPlatform τ).Step}
    (hret : effectReturned step = true → row.outcome.isFailure = false) :
    Truthful (step :: own) row where
  succeeded hs := by
    rw [List.any_cons, h.succeeded hs, Bool.or_true]
  failed hf := by
    rw [List.any_cons, h.failed hf, Bool.or_true]
  returned hr := by
    rw [List.any_cons, Bool.or_eq_true] at hr
    rcases hr with hstep | hown
    · exact hret hstep
    · exact h.returned hown
  unwritten hw := h.unwritten fun st hst => hw st (List.mem_cons_of_mem _ hst)

/-- The row a process holds once it has taken a step of its own. -/
theorem truthful_own {own : List (effectPlatform τ).Step} {ph ph' : EffectPhase}
    {step : (effectPlatform τ).Step} {choice : Choice} {row row' : EffectEvidence τ}
    (hnext : EffectStep ph step ph')
    (hexec : AppOp.exec step.op choice step.before = some (step.res, step.after))
    (hown : EffectSound own ph)
    (hlost : completesRow step = true → own.any effectReturned = true → 2 ≤ completionsBegun own →
      step.after.evidence = step.before.evidence)
    (hopen : ∃ st ∈ own, startedRow st = some row)
    (hrow : step.before.evidence.get row.id = some row') (htrue : Truthful own row') :
    ∃ row', step.after.evidence.get row.id = some row' ∧ Truthful (step :: own) row' := by
  obtain ⟨st, hst, hstarted⟩ := hopen
  have hkept : step.after.evidence = step.before.evidence →
      ∃ row', step.after.evidence.get row.id = some row' ∧ Truthful (step :: own) row' := by
    intro hsame
    refine ⟨row', hsame ▸ hrow, htrue.cons fun hret => ?_⟩
    obtain ⟨id, rfl⟩ := hnext.running_of_returned hret
    -- while an effect runs its row cannot say that it threw
    cases hf : row'.outcome.isFailure with
    | false => rfl
    | true =>
      have hthrew := htrue.failed hf
      rw [hown.2.2] at hthrew
      cases hthrew
  rcases hnext.evidence hexec with hsame | ⟨_, rfl, -, -⟩ | ⟨id, row₂, hop, hput, hphase⟩
  · exact hkept hsame
  · rw [hown.1 st hst] at hstarted
    cases hstarted
  · have hcompletes : completesRow step = true := by
      obtain ⟨call, op, res, before, after⟩ := step
      cases hop
      rfl
    have hnotret : effectReturned step = false := by
      obtain ⟨call, op, res, before, after⟩ := step
      cases hop
      rfl
    by_cases hsame : step.after.evidence = step.before.evidence
    · exact hkept hsame
    have hunwritten : ¬ ∀ st ∈ step :: own, completesRow st = true →
        st.after.evidence = st.before.evidence := fun hall =>
      hsame (hall step List.mem_cons_self hcompletes)
    rcases hphase with ⟨rfl, hout⟩ | ⟨n, rfl⟩ | ⟨rfl, hout⟩
    · obtain ⟨hopened, hret, -, -⟩ := hown
      obtain rfl := hopened.2 st hst row hstarted
      refine ⟨row₂, ?_, fun _ => ?_, fun hf => ?_, fun _ => ?_, fun hall => absurd hall hunwritten⟩
      · rw [hput, Table.get_put_same]
      · rw [List.any_cons, hret, Bool.or_true]
      · rw [hout] at hf
        cases hf
      · rw [hout]
        rfl
    · -- a second completion: by assumption it is not written
      obtain ⟨-, hret, -, hbegun⟩ := hown
      exact absurd (hlost hcompletes hret (Nat.le_trans (Nat.le_add_left 2 n) hbegun)) hsame
    · obtain ⟨hopened, hret, hthrew⟩ := hown
      obtain rfl := hopened.2 st hst row hstarted
      refine ⟨row₂, ?_, fun hs => ?_, fun _ => ?_, fun hr => ?_, fun hall => absurd hall hunwritten⟩
      · rw [hput, Table.get_put_same]
      · rw [hs] at hout
        cases hout
      · rw [List.any_cons, hthrew, Bool.or_true]
      · rw [List.any_cons, hnotret, hret] at hr
        cases hr

/-- The row of another process is left alone. -/
theorem row_of_other {ph ph' : EffectPhase} {step : (effectPlatform τ).Step} {choice : Choice}
    {own : List (effectPlatform τ).Step} {row row' : EffectEvidence τ}
    (hnext : EffectStep ph step ph')
    (hexec : AppOp.exec step.op choice step.before = some (step.res, step.after))
    (hown : EffectSound own ph)
    (hforeign : ∀ st ∈ own, ∀ mine, startedRow st = some mine → mine.id ≠ row.id)
    (hrow : step.before.evidence.get row.id = some row') :
    step.after.evidence.get row.id = some row' := by
  rcases hnext.evidence hexec with hsame | ⟨new, -, habsent, hput⟩ | ⟨id, row₂, -, hput, hphase⟩
  · rw [hsame, hrow]
  · rw [hput, Table.get_put_other, hrow]
    intro heq
    rw [heq, habsent] at hrow
    cases hrow
  · have hopened : Opened own id := by
      rcases hphase with ⟨rfl, -⟩ | ⟨n, rfl⟩ | ⟨rfl, -⟩ <;> exact hown.1
    obtain ⟨⟨st, hst, mine, hmine, rfl⟩, -⟩ := hopened
    rw [hput, Table.get_put_other _ _ (Ne.symm (hforeign st hst mine hmine)), hrow]

/-- The obligations of the invariant. -/
theorem effects_local : (effectProtocol τ).LocalOver SecondCompletionLost (fun _ _ _ => True)
    (fun w past => EvidenceTruthful w past ∧ RowsOwned past)
    (fun _ past pid ph => EffectSound (ownSteps pid past) ph) where
  spawn := by
    intro w past pid call _ hfresh
    rw [ownSteps_fresh hfresh]
    exact ⟨fun _ h => (List.not_mem_nil h).elim, rfl, rfl⟩
  good := by
    intro past phases pid step ph ph' h
    obtain ⟨htruthful, howned⟩ := h.good
    obtain ⟨choice, hexec⟩ := h.exec
    have hnew : ∀ row, startedRow step = some row → step.before.evidence.get row.id = none ∧
        step.after.evidence.get row.id = some row ∧ row.outcome = .started := by
      intro row hrow
      obtain ⟨call, before, after, rfl, hstarted⟩ := startedRow_eq hrow
      rcases exec_records hexec with ⟨-, hne⟩ | ⟨habsent, -⟩
      · exact absurd rfl hne
      · exact ⟨habsent, exec_recordEvidence hexec, hstarted⟩
    constructor
    · intro q st hst row hstarted
      by_cases hq : pid = q
      · subst hq
        rw [ownSteps_same] at hst ⊢
        rcases List.mem_cons.mp hst with rfl | hst
        · obtain ⟨-, hstored, hout⟩ := hnew row hstarted
          exact ⟨row, hstored, truthful_of_started hout⟩
        · obtain ⟨row', hrow, htrue⟩ := htruthful pid st hst row hstarted
          exact truthful_own h.next hexec h.own h.cond ⟨st, hst, hstarted⟩ hrow htrue
      · rw [ownSteps_other _ _ hq] at hst ⊢
        obtain ⟨row', hrow, htrue⟩ := htruthful q st hst row hstarted
        refine ⟨row', row_of_other h.next hexec h.own (fun mst hmst mine hmine heq => ?_) hrow, htrue⟩
        exact hq (howned pid q mst hmst st hst mine row hmine hstarted heq)
    · -- a row recorded now has an id no recorded row has
      have hfresh : ∀ q, ∀ st ∈ ownSteps q past, ∀ row new, startedRow st = some row →
          startedRow step = some new → row.id ≠ new.id := by
        intro q st hst row new hrow hstarted heq
        obtain ⟨row', hstored, -⟩ := htruthful q st hst row hrow
        rw [heq, (hnew new hstarted).1] at hstored
        cases hstored
      have hcases : ∀ q, ∀ st ∈ ownSteps q (.ran pid step :: past),
          (q = pid ∧ st = step) ∨ st ∈ ownSteps q past := by
        intro q st hst
        by_cases hq : pid = q
        · subst hq
          rw [ownSteps_same] at hst
          exact (List.mem_cons.mp hst).imp_left fun h => ⟨rfl, h⟩
        · rw [ownSteps_other _ _ hq] at hst
          exact .inr hst
      intro q q' st hst st' hst' row row' hrow hrow' heq
      rcases hcases q st hst with ⟨rfl, rfl⟩ | hold <;> rcases hcases q' st' hst' with ⟨rfl, rfl⟩ | hold'
      · rfl
      · exact absurd heq.symm (hfresh q' st' hold' row' row hrow' hrow)
      · exact absurd heq (hfresh q st hold row row' hrow hrow')
      · exact howned q q' st hold st' hold' row row' hrow hrow' heq
  own := by
    intro past phases pid step ph ph' h
    rw [ownSteps_same]
    exact h.next.sound h.own
  other := by
    intro past phases pid step ph ph' q phq h hne hq
    rw [ownSteps_other _ _ (Ne.symm hne)]
    exact h.sound q phq hq
  stopGood h _ := h
  stopOther _ h := h
  envGood := by
    intro w w' past move h henv
    obtain rfl := Option.some.inj henv
    refine ⟨fun pid st hst row hrow => ?_, h.2⟩
    obtain ⟨row', hstored, htrue⟩ := h.1 pid st hst row hrow
    exact ⟨row', move.2 w row.id row' hstored, htrue⟩
  envSound _ _ h _ := h

/-! ## The guarantee -/

/-- **Evidence never contradicts what happened**, in every run in which no second
completion of an effect that returned is written: at every moment a row an effect was
started under is stored, says `succeeded` only of an effect that returned and a
failure only of one that threw, says no failure of one that returned, and says
`started` as long as no completion was written. -/
theorem evidence_tells_what_happened {w : World τ} {as : List (effectPlatform τ).Action}
    {c : (effectPlatform τ).Config} (hrun : (effectPlatform τ).run (Config.init w) as = some c)
    (hlost : Throughout SecondCompletionLost c.past) : EvidenceTruthful c.world c.past := by
  have hinit : (EvidenceTruthful w ([] : (effectPlatform τ).History) ∧
      RowsOwned ([] : (effectPlatform τ).History)) ∧
      ∀ (q : Nat) (phq : EffectPhase), (none : Option EffectPhase) = some phq →
        EffectSound (ownSteps q ([] : (effectPlatform τ).History)) phq := by
    refine ⟨⟨fun _ _ h => (List.not_mem_nil h).elim, fun _ _ _ h => (List.not_mem_nil h).elim⟩, ?_⟩
    intro q phq hq
    cases hq
  obtain ⟨phases, hholds, -⟩ := Discipline.sound effectProtocol_obeyed effects_local.toInductive
    hinit hrun hlost
  exact hholds.1.1

/-! ### Runs -/

/-- Ada is authenticated and allowed `jobs.create`; the row stands and the effect has
been invoked. -/
def invokedRun : List (effectPlatform Nat).Action :=
  let claims : PrincipalClaims :=
    { principalId := "ada", principalType := "user", tenantId := "acme" }
  let gateway : ServiceGateway := { application := "app", authorizer := true, credentials := false }
  let decision : JsValue := .obj [
    ("decision_id", .str "d1"), ("allowed", .bool true), ("capability", .str "jobs.create"),
    ("tenant_id", .str "acme"), ("application_id", .str "app"),
    ("subject", .obj [("id", .str "ada")]),
    ("resource", .obj [("uri", .str "appport://app/tenants/acme/job/*")])]
  [.spawn (.gateway (.authenticate claims .host)), .step 0 .proceed,
    .spawn (.gateway (.execute gateway "jobs.create" (.of (mintedPrincipal claims .host 0))
      { type := "job", tenantId := "acme" } { service := "jobs" })),
    .step 1 (.draw "request"), .step 1 .proceed, .step 1 .proceed, .step 1 .proceed,
    .step 1 .proceed, .step 1 (.decision false (.ok decision)), .step 1 .proceed,
    .step 1 .proceed, .step 1 .proceed, .step 1 .proceed, .step 1 .proceed,
    .step 1 (.draw "row"), .step 1 .proceed, .step 1 .proceed]

/-- The effect returns and its completion is written. -/
def completedRun : List (effectPlatform Nat).Action :=
  invokedRun ++ [.step 1 (.host (.ok .null)), .step 1 .proceed, .step 1 .proceed, .step 1 .proceed,
    .step 1 .proceed]

/-- The effect returns, the write of its completion rejects, and that of the second
completion goes through. -/
def lostCompletion : List (effectPlatform Nat).Action :=
  invokedRun ++ [.step 1 (.host (.ok .null)), .step 1 .proceed, .step 1 .proceed, .step 1 .proceed,
    .step 1 (.reject false "connection lost"), .step 1 .proceed, .step 1 .proceed, .step 1 .proceed,
    .step 1 .proceed]

/-- A test for the condition: no row is written after a second completion began. -/
def noSecondCompletion (older : (effectPlatform τ).History) : (effectPlatform τ).Event → Bool
  | .ran pid step => !(completesRow step && decide (2 ≤ completionsBegun (ownSteps pid older)))
  | .stopped _ _ => true

theorem secondCompletionLost_of_none {past : (effectPlatform τ).History}
    (h : Always noSecondCompletion past) : Throughout SecondCompletionLost past := by
  refine h.mono fun older e he => ?_
  cases e with
  | stopped pid call => trivial
  | ran pid step =>
    intro hcompletes _ hbegun
    simp [noSecondCompletion, hcompletes, hbegun] at he

/-- The outcome of the stored row, and whether its effect returned or threw. -/
def reads (pid : Nat) (id : String) (outcome : EffectOutcome) (c : (effectPlatform τ).Config) : Bool :=
  (c.world.evidence.get id).any (fun row => row.outcome = outcome) &&
    (ownSteps pid c.past).any (fun step => (startedRow step).any fun row => row.id == id) &&
    (ownSteps pid c.past).any effectReturned && !(ownSteps pid c.past).any effectThrew

theorem evidence_tells_what_happened_completedRun :
    ∃ c, (effectPlatform Nat).run (Config.init { clock := 0 }) completedRun = some c ∧
      reads 1 "row" .succeeded c = true ∧ EvidenceTruthful c.world c.past := by
  obtain ⟨c, hrun, htest⟩ : ∃ c, (effectPlatform Nat).run (Config.init { clock := 0 }) completedRun =
      some c ∧ (reads 1 "row" .succeeded c && decide (Always noSecondCompletion c.past)) = true :=
    exists_of_run (by decide +kernel)
  obtain ⟨hreads, hnone⟩ := Bool.and_eq_true_iff.mp htest
  exact ⟨c, hrun, hreads,
    evidence_tells_what_happened hrun (secondCompletionLost_of_none (of_decide_eq_true hnone))⟩

/-- Without the condition a row calls an effect that returned `failed`. -/
theorem lostCompletion_reads_failed :
    ∃ c, (effectPlatform Nat).run (Config.init { clock := 0 }) lostCompletion = some c ∧
      ¬ EvidenceTruthful c.world c.past := by
  obtain ⟨c, hrun, htest⟩ : ∃ c, (effectPlatform Nat).run (Config.init { clock := 0 }) lostCompletion =
      some c ∧ reads 1 "row" .failed c = true := exists_of_run (by decide +kernel)
  refine ⟨c, hrun, fun htruthful => ?_⟩
  simp only [reads, Bool.and_eq_true, Option.any_eq_true, List.any_eq_true, Bool.not_eq_true',
    decide_eq_true_eq, beq_iff_eq] at htest
  obtain ⟨⟨⟨⟨row, hrow, hout⟩, step, hstep, mine, hmine, hid⟩, -⟩, hthrew⟩ := htest
  obtain ⟨row', hrow', htrue⟩ := htruthful 1 step hstep mine hmine
  rw [hid, hrow] at hrow'
  obtain rfl := Option.some.inj hrow'
  have := htrue.failed (by rw [hout]; rfl)
  rw [hthrew] at this
  cases this

end AppPort
