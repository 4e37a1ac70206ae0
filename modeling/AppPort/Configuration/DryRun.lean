import AppPort.Configuration.Import
import AppPort.Jobs.Footprint
import AppPort.Runtime.Alone
import AppPort.Webhooks.Protocol

/-!
# A dry run is the plan

`importConfiguration` reads the target once, and then decides on each entry of the document
from what it has read: no decision looks at what an earlier entry wrote. So what is decided
is a function of the document and the target as it was, and a dry run, which stops there,
reports the same items as the run that also writes them.
-/

namespace AppPort

open Effects

variable {τ : Type} [Timestamp τ]

/-! ## Which calls change what -/

/-- The call leaves every record of the services as it is. -/
def AppOp.Reads (op : AppOp τ) : Prop :=
  ∀ choice w res w', op.exec choice w = some (res, w') → SameStores w w'

/-- The call leaves every credential binding as it is. -/
def AppOp.KeepsBindings (op : AppOp τ) : Prop :=
  ∀ choice w res w', op.exec choice w = some (res, w') →
    w'.configuration.secretTable = w.configuration.secretTable

/-- The calls that write bindings. -/
def AppOp.writesBinding : AppOp τ → Bool
  | .configuration (.saveSecret ..) | .configuration (.deleteSecret _) => true
  | _ => false

/-- The calls of a plan: authority calls, and the lists of the target. -/
def AppOp.lists : AppOp τ → Bool
  | .authority _ | .configuration (.listVariables _) | .configuration (.listSecrets _) => true
  | .webhooks (.listEndpoints _) | .schedules (.list _) => true
  | _ => false

def bindingFree : Set (AppOp τ) := {op | op.writesBinding = false}

def listCalls : Set (AppOp τ) := {op | op.lists = true}

/-- A read of a store changes nothing. -/
theorem reads_of_stored {op : AppOp τ} (read : World τ → Except JsError (op.Out τ))
    (hexec : ∀ choice w, op.exec choice w = stored choice w (read w, w)) : op.Reads := by
  intro choice w res w' h
  rw [hexec] at h
  rcases stored_cases h with ⟨-, rfl⟩ | ⟨_, -, rfl | rfl⟩ <;> exact SameStores.refl _

theorem reads_of_lists {op : AppOp τ} (h : op.lists = true) : op.Reads := by
  cases op with
  | authority o => exact fun _ _ _ _ => AuthorityOp.exec_stores
  | configuration o =>
    cases o with
    | listVariables scope =>
      exact reads_of_stored (fun w => .ok (w.configuration.variablesOf scope)) fun _ _ => rfl
    | listSecrets scope =>
      exact reads_of_stored (fun w => .ok (w.configuration.secretsOf scope)) fun _ _ => rfl
    | _ => cases h
  | webhooks o =>
    cases o with
    | listEndpoints tenantId =>
      exact reads_of_stored
        (fun w => .ok (w.webhooks.endpoints.find fun e => e.tenantId == tenantId)) fun _ _ => rfl
    | _ => cases h
  | schedules o =>
    cases o with
    | list tenantId =>
      exact reads_of_stored
        (fun w => .ok (w.schedules.find fun s => s.tenantId == tenantId)) fun _ _ => rfl
    | _ => cases h
  | _ => cases h

theorem keepsBindings_of_free {op : AppOp τ} (h : op.writesBinding = false) : op.KeepsBindings := by
  intro choice w res w' hexec
  have hstored : ∀ {β : Type} {r : Except JsError β × World τ} {res : Except JsError β},
      r.2.configuration.secretTable = w.configuration.secretTable →
      stored choice w r = some (res, w') →
      w'.configuration.secretTable = w.configuration.secretTable := by
    intro β r res hr hs
    rcases stored_cases hs with ⟨-, rfl⟩ | ⟨_, -, rfl | rfl⟩
    · exact hr
    · exact hr
    · rfl
  cases op with
  | authority o => rw [(AuthorityOp.exec_stores hexec).configuration]
  | jobs o => exact hstored rfl hexec
  | schedules o => exact hstored rfl hexec
  | webhooks o => exact hstored rfl hexec
  | notifications o => exact hstored rfl hexec
  | apiKeys o => exact hstored rfl hexec
  | configuration o =>
    cases o with
    | saveSecret | deleteSecret => cases h
    | listVariables | getVariable | saveVariable | deleteVariable | listSecrets | getSecret | audit =>
      exact hstored rfl hexec
  | secretMetadata o => exact hstored rfl hexec
  | audit o => cases o <;> exact hstored rfl hexec
  | commit ops =>
    refine hstored ?_ hexec
    split
    · next w₁ hall =>
      refine applyAll_rel (R := fun w w' => w'.configuration.secretTable = w.configuration.secretTable)
        (fun _ => rfl) (fun h₁ h₂ => h₂.trans h₁) (fun op _ w w' hop => ?_) hall
      cases op <;> simp only [TransactionOperation.apply, Option.map_eq_some_iff] at hop
      case jobAudit | webhookAudit | notificationAudit =>
        cases hop
        rfl
      all_goals
        obtain ⟨t, -, rfl⟩ := hop
        rfl
    · rfl
  | host o => rw [o.exec_world hexec]

omit [Timestamp τ] in
theorem bindingFree_ambient : Ambient (bindingFree : Set (AppOp τ)) where
  authority := by
    rintro _ ⟨o, rfl⟩
    rfl
  audit _ := rfl
  schedules _ _ := rfl

omit [Timestamp τ] in
theorem bindingFree_webhook : WebhookCalls (bindingFree : Set (AppOp τ)) where
  quiet op _ _ hconfigures := by
    cases op with
    | configuration | secretMetadata => cases hconfigures
    | _ => rfl

omit [Timestamp τ] in
theorem authority_lists : authorityCalls ⊆ (listCalls : Set (AppOp τ)) := by
  rintro _ ⟨o, rfl⟩
  rfl

omit [Timestamp τ] in
theorem lists_bindingFree : (listCalls : Set (AppOp τ)) ⊆ bindingFree := by
  intro op h
  cases op with
  | configuration o => cases o <;> first | rfl | cases h
  | _ => rfl

/-! ## The calls of the configuration service -/

section uses

variable (service : ConfigurationService)

omit [Timestamp τ] in
theorem uses_own {calls : Set (AppOp τ)} (hauthority : authorityCalls ⊆ calls) (scope : ScopeInput)
    (caller : PrincipalInput) : Task.Uses (S := services τ) calls (service.own (τ := τ) scope caller) := by
  unfold ConfigurationService.own ConfigurationService.resolveOwnership
  refine uses_check fun gateway => ?_
  refine Task.Uses.bind ((uses_requireVerifiedPrincipal _).mono hauthority) fun principal => ?_
  refine uses_check fun _ => uses_check fun tenantId => ?_
  split
  · trivial
  · split <;> trivial

theorem uses_configurationList (scope : ScopeInput) (caller : PrincipalInput) :
    Task.Uses (S := services τ) listCalls (service.list scope caller) := by
  unfold ConfigurationService.list
  refine Task.Uses.bind (uses_own service authority_lists _ _) fun owned => uses_check fun gateway => ?_
  refine gateway.uses_execute authority_lists _ _ _ _ fun _ _ => ?_
  refine Task.Uses.bind (Task.uses_perform rfl) fun _ => ?_
  exact Task.Uses.bind (Task.uses_perform rfl) fun _ => trivial

omit [Timestamp τ] in
theorem uses_record (type : String) (scope : ConfigurationScope)
    (name kind actor operation status : String) : Task.Uses (S := services τ) bindingFree
      (ConfigurationService.record (τ := τ) type scope name kind actor operation status) := by
  unfold ConfigurationService.record
  refine Task.Uses.bind (bindingFree_ambient.uses uses_randomUUID) fun id => ?_
  exact Task.Uses.bind (bindingFree_ambient.uses uses_now) fun _ => Task.uses_perform rfl

theorem uses_createVariable (input : VariableInput) (caller : PrincipalInput) :
    Task.Uses (S := services τ) bindingFree (service.createVariable (τ := τ) input caller) := by
  unfold ConfigurationService.createVariable
  refine Task.Uses.bind (uses_own service bindingFree_ambient.authority _ _) fun owned => ?_
  refine uses_check fun name => uses_check fun value => uses_check fun gateway => ?_
  refine gateway.uses_execute bindingFree_ambient.authority _ _ _ _ fun _ _ => ?_
  refine Task.Uses.bind (Task.uses_perform rfl) fun current => ?_
  refine Task.Uses.bind (Task.uses_perform rfl) fun secret => ?_
  split
  · trivial
  · refine Task.Uses.bind (bindingFree_ambient.uses uses_now) fun timestamp => ?_
    refine Task.Uses.bind (bindingFree_ambient.uses uses_randomUUID) fun id => ?_
    refine Task.Uses.bind (Task.uses_perform rfl) fun _ => ?_
    exact (uses_record ..).bind fun _ => trivial

theorem uses_updateVariable (input : VariableInput) (caller : PrincipalInput) :
    Task.Uses (S := services τ) bindingFree (service.updateVariable (τ := τ) input caller) := by
  unfold ConfigurationService.updateVariable
  refine Task.Uses.bind (uses_own service bindingFree_ambient.authority _ _) fun owned => ?_
  refine uses_check fun name => uses_check fun value => uses_check fun gateway => ?_
  refine gateway.uses_execute bindingFree_ambient.authority _ _ _ _ fun _ _ => ?_
  refine Task.Uses.bind (Task.uses_perform rfl) fun current => ?_
  split
  · trivial
  · refine Task.Uses.bind (bindingFree_ambient.uses uses_now) fun updatedAt => ?_
    refine Task.Uses.bind (Task.uses_perform rfl) fun _ => ?_
    exact (uses_record ..).bind fun _ => trivial

end uses

/-! ## Deciding and applying -/

/-- An item that was not applied. -/
def PlannedItem.unapplied (planned : PlannedItem) : ConfigurationImportItem :=
  { planned with applied := false }

/-- A part of an import: a dry run settles with what is planned, a real run with items of
the same plan, and without a call that writes a binding. -/
structure Decides (part : Bool → Svc τ (List ConfigurationImportItem)) (planned : List PlannedItem) :
    Prop where
  dry : part true = .settled (.ok (planned.map PlannedItem.unapplied))
  real : ∀ (E : Setting (services τ) (World τ)) w, (part false).Ensures E w fun r _ =>
    ∃ items, r = .ok items ∧ items.map ConfigurationImportItem.toPlannedItem = planned
  calls : Task.Uses (S := services τ) bindingFree (part false)

namespace ConfigurationTransferDependencies

variable (deps : ConfigurationTransferDependencies τ)

/-- An entry is decided on before it is known whether it will be written. -/
structure DecidesOn (one : Bool → Svc τ ConfigurationImportItem) (planned : PlannedItem)
    (write : Svc τ Unit) : Prop where
  applies : ∀ dryRun, one dryRun = deps.apply dryRun planned write
  calls : Task.Uses (S := services τ) bindingFree write

omit [Timestamp τ] in
theorem apply_dry (planned : PlannedItem) (write : Svc τ Unit) :
    deps.apply true planned write = .settled (.ok planned.unapplied) := rfl

omit [Timestamp τ] in
/-- However a write goes, its item is of the plan. -/
theorem ensures_apply (E : Setting (services τ) (World τ)) (w : World τ) (planned : PlannedItem)
    (write : Svc τ Unit) : (deps.apply false planned write).Ensures E w fun r _ =>
      ∃ item : ConfigurationImportItem, r = .ok item ∧ item.toPlannedItem = planned := by
  unfold apply
  split
  · exact ⟨_, rfl, rfl⟩
  · refine (Task.ensures_true write w).settleWith fun r _ _ => ?_
    cases r with
    | ok _ => exact ⟨_, rfl, rfl⟩
    | error _ => exact ⟨_, rfl, rfl⟩

omit [Timestamp τ] in
theorem uses_apply {planned : PlannedItem} {write : Svc τ Unit}
    (h : Task.Uses (S := services τ) bindingFree write) :
    Task.Uses (S := services τ) bindingFree (deps.apply false planned write) := by
  unfold apply
  split
  · trivial
  · refine h.settleWith fun r => ?_
    cases r <;> trivial

omit [Timestamp τ] in
/-- Entry after entry. -/
theorem decides_each {α : Type} {one : Bool → α → Svc τ ConfigurationImportItem}
    (h : ∀ a, ∃ planned write, deps.DecidesOn (fun dryRun => one dryRun a) planned write) :
    (entries : List α) → ∃ planned, Decides (fun dryRun => importEach (one dryRun) entries) planned
  | [] => ⟨[], rfl, fun _ _ => ⟨[], rfl, rfl⟩, trivial⟩
  | entry :: rest => by
    obtain ⟨planned, write, hfirst⟩ := h entry
    obtain ⟨others, hrest⟩ := decides_each h rest
    refine ⟨planned :: others, ?_, fun E w => ?_, ?_⟩
    · show ((one true entry).bind fun item => (importEach (one true) rest).bind fun items =>
        pure (item :: items)) = _
      rw [hfirst.applies true, deps.apply_dry, hrest.dry]
      rfl
    · refine Task.Ensures.bind ((hfirst.applies false).symm ▸ deps.ensures_apply E w planned write) ?_ ?_
      · rintro item w₁ ⟨_, hitem, hplanned⟩
        obtain rfl := Except.ok.inj hitem
        refine Task.Ensures.bind (hrest.real E w₁) ?_ ?_
        · rintro items w₂ ⟨_, hitems, hothers⟩
          obtain rfl := Except.ok.inj hitems
          exact ⟨item :: items, rfl, by rw [List.map_cons, hplanned, hothers]⟩
        · rintro e w₂ ⟨_, h, -⟩
          cases h
      · rintro e w₁ ⟨_, h, -⟩
        cases h
    · refine Task.Uses.bind ((hfirst.applies false).symm ▸ deps.uses_apply hfirst.calls) fun _ => ?_
      exact hrest.calls.bind fun _ => trivial

/-! ## The entries of a document -/

variable (target : ImportTarget τ) (overwrite : Bool) (principal : VerifiedPrincipal)

omit [Timestamp τ] in
/-- Nothing is to be written. -/
theorem decidesOn_nothing (planned : PlannedItem) :
    deps.DecidesOn (fun dryRun => deps.apply dryRun planned (pure ())) planned (pure ()) :=
  ⟨fun _ => rfl, trivial⟩

/-- A variable is created, updated, or left. -/
theorem importVariable_decides (entry : ConfigurationExportVariable) :
    ∃ planned write, deps.DecidesOn
      (fun dryRun => deps.importVariable target dryRun overwrite principal entry) planned write := by
  unfold importVariable
  simp only
  split
  · exact ⟨_, _, deps.decidesOn_nothing _⟩
  cases target.variableView? entry.name with
  | none =>
    exact ⟨_, _, fun _ => rfl, (uses_createVariable ..).bind fun _ => trivial⟩
  | some existing =>
    simp only
    split
    · exact ⟨_, _, deps.decidesOn_nothing _⟩
    split
    · exact ⟨_, _, deps.decidesOn_nothing _⟩
    · exact ⟨_, _, fun _ => rfl, (uses_updateVariable ..).bind fun _ => trivial⟩

/-- An endpoint is registered, replaced, or left. -/
theorem importEndpoint_decides (hooks : WebhookService) (entry : ConfigurationExportWebhookEndpoint) :
    ∃ planned write, deps.DecidesOn
      (fun dryRun => deps.importEndpoint hooks target dryRun overwrite principal entry) planned write := by
  have hcreate : ∀ ref, Task.Uses (S := services τ) bindingFree
      (createExportedEndpoint hooks principal entry ref) := fun ref =>
    (hooks.uses_createWebhookEndpoint bindingFree_webhook _ _).bind fun _ => trivial
  unfold importEndpoint
  simp only
  split
  · exact ⟨_, _, deps.decidesOn_nothing _⟩
  cases keepPresent (entry.signingCredentialRef <|> (target.endpoints.find? fun candidate =>
      candidate.url == entry.url).bind WebhookEndpoint.signingCredentialRef) with
  | none => exact ⟨_, _, deps.decidesOn_nothing _⟩
  | some ref =>
    cases target.endpoints.find? fun candidate => candidate.url == entry.url with
    | none => exact ⟨_, _, fun _ => rfl, hcreate ref⟩
    | some existing =>
      simp only
      split
      · exact ⟨_, _, deps.decidesOn_nothing _⟩
      · refine ⟨_, _, fun _ => rfl, (hcreate ref).bind fun _ => ?_⟩
        exact (hooks.uses_disableWebhookEndpoint bindingFree_webhook _ _).bind fun _ => trivial

/-- A schedule is created, replaced, or left. -/
theorem importSchedule_decides (scheduler : ScheduleService τ) (entry : ConfigurationExportSchedule) :
    ∃ planned write, deps.DecidesOn
      (fun dryRun => deps.importSchedule scheduler target dryRun overwrite principal entry)
      planned write := by
  have hcreate : Task.Uses (S := services τ) bindingFree
      (scheduler.createExported entry (.of principal)) :=
    (scheduler.uses_create bindingFree_ambient _ _ fun _ _ _ _ _ _ _ _ _ _ => rfl).bind
      fun _ => trivial
  unfold importSchedule
  simp only
  split
  · exact ⟨_, _, deps.decidesOn_nothing _⟩
  split
  · exact ⟨_, _, fun _ => rfl, hcreate⟩
  split
  · exact ⟨_, _, deps.decidesOn_nothing _⟩
  · refine ⟨_, _, fun _ => rfl, hcreate.bind fun _ => Task.Uses.forEach _ fun replaced _ => ?_⟩
    exact (scheduler.jobs.uses_disableSchedule bindingFree_ambient ..).bind fun _ => trivial

omit [Timestamp τ] in
/-- An item that is neither a creation nor an update is not written. -/
theorem apply_other {planned : PlannedItem} (hcreate : planned.action ≠ .create)
    (hupdate : planned.action ≠ .update) (dryRun : Bool) (write : Svc τ Unit) :
    deps.apply dryRun planned write = .settled (.ok planned.unapplied) := by
  unfold apply
  rw [if_pos (by simp [hcreate, hupdate])]
  rfl

/-- The bindings of a document that the target misses. -/
def missingOf (target : ImportTarget τ) (entries : List ConfigurationExportSecret) :
    List ConfigurationMissingSecret :=
  (entries.filter fun entry => (target.variableView? entry.name).isNone &&
    (target.secretView? entry.name).isNone).map fun entry =>
      { name := entry.name, required := entry.required, sourceCredentialRef := entry.credentialRef }

omit [Timestamp τ] in
/-- A binding is never written: a dry run and a real run say the same of it. -/
theorem importSecret_settled (entry : ConfigurationExportSecret) :
    ∃ (planned : PlannedItem) (missing : Option ConfigurationMissingSecret),
      (∀ dryRun, deps.importSecret target dryRun entry =
        .settled (.ok (planned.unapplied, missing))) ∧
      missing.toList = missingOf target [entry] := by
  unfold importSecret missingOf
  cases hvariable : target.variableView? entry.name with
  | some existing =>
    refine ⟨{ kind := .secret, key := entry.name, action := .conflict
              reason := some "the target uses this name for a variable" }, none, fun dryRun => ?_, ?_⟩
    · simp only [Option.isSome_some, if_true]
      rw [apply_other deps (by simp) (by simp)]
      rfl
    · simp [hvariable]
  | none =>
    cases hsecret : target.secretView? entry.name with
    | some existing =>
      refine ⟨{ kind := .secret, key := entry.name, action := .unchanged
                reason := if existing.credentialRef = entry.credentialRef then none
                  else some "bound in the target to its own credential reference" }, none,
        fun dryRun => ?_, ?_⟩
      · simp only [Option.isSome_none, Bool.false_eq_true, if_false]
        rw [apply_other deps (by simp) (by simp)]
        rfl
      · simp [hvariable, hsecret]
    | none =>
      refine ⟨{ kind := .secret, key := entry.name, action := .missing
                reason := some "attach the credential in the target with credential.attach" },
        some { name := entry.name, required := entry.required
               sourceCredentialRef := entry.credentialRef }, fun dryRun => ?_, ?_⟩
      · simp only [Option.isSome_none, Bool.false_eq_true, if_false]
        rw [apply_other deps (by simp) (by simp)]
        rfl
      · simp [hvariable, hsecret]

omit [Timestamp τ] in
/-- Bindings are never written: a dry run and a real run say the same of them. -/
theorem importSecrets_settled : (entries : List ConfigurationExportSecret) → ∃ outcomes,
    (∀ dryRun, importEach (deps.importSecret target dryRun) entries = .settled (.ok outcomes)) ∧
    (∃ planned : List PlannedItem, outcomes.map Prod.fst = planned.map PlannedItem.unapplied) ∧
    outcomes.filterMap Prod.snd = missingOf target entries
  | [] => ⟨[], fun _ => rfl, ⟨[], rfl⟩, rfl⟩
  | entry :: rest => by
    obtain ⟨outcomes, hrest, ⟨others, hothers⟩, hmissing⟩ := importSecrets_settled rest
    obtain ⟨planned, missing, hfirst, hentry⟩ := deps.importSecret_settled target entry
    refine ⟨(planned.unapplied, missing) :: outcomes, fun dryRun => ?_,
      ⟨planned :: others, by rw [List.map_cons, List.map_cons, hothers]⟩, ?_⟩
    · show ((deps.importSecret target dryRun entry).bind fun item =>
        (importEach (deps.importSecret target dryRun) rest).bind fun items => pure (item :: items)) = _
      rw [hfirst dryRun, hrest dryRun]
      rfl
    · have hsplit : missingOf target (entry :: rest) =
          missingOf target [entry] ++ missingOf target rest := by
        unfold missingOf
        rw [← List.map_append, ← List.filter_append]
        rfl
      rw [hsplit, ← hentry, ← hmissing]
      cases missing <;> rfl

omit [Timestamp τ] in
theorem unapplied_toPlannedItem (planned : List PlannedItem) :
    (planned.map PlannedItem.unapplied).map ConfigurationImportItem.toPlannedItem = planned := by
  rw [List.map_map]
  exact List.map_id planned

omit [Timestamp τ] in
/-- Entries of what is not mounted are skipped. -/
theorem decides_skipped {α : Type} (kind : ConfigurationImportKind) (key : α → String)
    (reason : String) (entries : List α) : ∃ planned,
      Decides (τ := τ) (fun _ => pure (skipped kind key reason entries)) planned := by
  refine ⟨entries.map fun entry => { kind, key := key entry, action := .skip, reason := some reason },
    ?_, fun E w => ⟨_, rfl, ?_⟩, trivial⟩
  · show Task.settled (.ok _) = _
    rw [List.map_map]
    rfl
  · rw [skipped, List.map_map]
    rfl

theorem importEndpoints_decides (entries : List ConfigurationExportWebhookEndpoint) : ∃ planned,
    Decides (fun dryRun => deps.importEndpoints target dryRun overwrite principal entries) planned := by
  unfold importEndpoints
  cases deps.webhooks with
  | none => exact decides_skipped ..
  | some hooks =>
    exact deps.decides_each (fun entry =>
      deps.importEndpoint_decides target overwrite principal hooks entry) entries

theorem importSchedules_decides (entries : List ConfigurationExportSchedule) : ∃ planned,
    Decides (fun dryRun => deps.importSchedules target dryRun overwrite principal entries) planned := by
  unfold importSchedules
  cases deps.schedules with
  | none => exact decides_skipped ..
  | some scheduler =>
    exact deps.decides_each (fun entry =>
      deps.importSchedule_decides target overwrite principal scheduler entry) entries

/-- What an import reports of its items. -/
def reportOf (target : ImportTarget τ) (dryRun overwrite : Bool)
    (missingSecrets : List ConfigurationMissingSecret) (items : List ConfigurationImportItem) :
    ConfigurationImportReport where
  dryRun := dryRun
  overwrite := overwrite
  environment := target.environment
  items := items
  summary := summaryOf items
  missingSecrets := missingSecrets

/-- The report is of the plan. -/
def ReportsPlan (target : ImportTarget τ) (dryRun overwrite : Bool)
    (missingSecrets : List ConfigurationMissingSecret) (planned : List PlannedItem)
    (report : ConfigurationImportReport) : Prop :=
  ∃ items : List ConfigurationImportItem, items.map ConfigurationImportItem.toPlannedItem = planned ∧
    report = reportOf target dryRun overwrite missingSecrets items

/-- **The document is planned as a whole.** A dry run settles with the plan at once; a real
run reports the same plan however its writes go, and writes no binding. -/
theorem importDocument_plan (document : ConfigurationExportDocument) : ∃ planned,
    deps.importDocument target true overwrite principal document = .settled (.ok
      (reportOf target true overwrite (missingOf target document.secrets)
        (planned.map PlannedItem.unapplied))) ∧
    (∀ (E : Setting (services τ) (World τ)) w,
      (deps.importDocument target false overwrite principal document).Ensures E w fun r _ =>
        ∃ report, r = .ok report ∧ ReportsPlan target false overwrite
          (missingOf target document.secrets) planned report) ∧
    Task.Uses (S := services τ) bindingFree
      (deps.importDocument target false overwrite principal document) := by
  obtain ⟨plannedVariables, hvariables⟩ := deps.decides_each
    (fun entry => deps.importVariable_decides target overwrite principal entry) document.variableEntries
  obtain ⟨outcomes, hsecrets, ⟨plannedSecrets, hplannedSecrets⟩, hmissing⟩ :=
    deps.importSecrets_settled target document.secrets
  obtain ⟨plannedEndpoints, hendpoints⟩ :=
    deps.importEndpoints_decides target overwrite principal document.webhookEndpoints
  obtain ⟨plannedSchedules, hschedules⟩ :=
    deps.importSchedules_decides target overwrite principal document.schedules
  refine ⟨plannedVariables ++ plannedSecrets ++ plannedEndpoints ++ plannedSchedules, ?_,
    fun E w => ?_, ?_⟩
  · unfold importDocument
    rw [hvariables.dry, hsecrets true, hendpoints.dry, hschedules.dry, ← hmissing, List.map_append,
      List.map_append, List.map_append, ← hplannedSecrets]
    rfl
  · unfold importDocument
    refine Task.Ensures.bind (hvariables.real E w) ?_ ?_
    · rintro variableItems w₁ ⟨_, h, hvariableItems⟩
      obtain rfl := Except.ok.inj h
      rw [hsecrets false]
      show Effects.Task.Ensures E (Effects.Task.bind (deps.importEndpoints ..) _) w₁ _
      refine Task.Ensures.bind (hendpoints.real E w₁) ?_ ?_
      · rintro endpointItems w₂ ⟨_, h, hendpointItems⟩
        obtain rfl := Except.ok.inj h
        refine Task.Ensures.bind (hschedules.real E w₂) ?_ ?_
        · rintro scheduleItems w₃ ⟨_, h, hscheduleItems⟩
          obtain rfl := Except.ok.inj h
          refine ⟨_, rfl, _, ?_, by rw [← hmissing]; rfl⟩
          rw [List.map_append, List.map_append, List.map_append, hvariableItems, hendpointItems,
            hscheduleItems, hplannedSecrets, unapplied_toPlannedItem]
        · rintro e w₃ ⟨_, h, -⟩
          cases h
      · rintro e w₂ ⟨_, h, -⟩
        cases h
    · rintro e w₁ ⟨_, h, -⟩
      cases h
  · unfold importDocument
    refine hvariables.calls.bind fun _ => ?_
    rw [hsecrets false]
    exact hendpoints.calls.bind fun _ => hschedules.calls.bind fun _ => trivial

/-! ## The target as it is -/

/-- The schedules a scheduler lists. -/
def listedIn (scheduler : ScheduleService τ) (w : World τ) (tenantId : String) :
    List (JobSchedule τ) :=
  match scheduler.authority with
  | some gateway => (w.schedules.find fun s => s.tenantId == tenantId).filter fun s =>
      s.applicationId == some gateway.application
  | none => []

/-- The target an import of a document reads in a world. -/
def targetIn (gateway : ServiceGateway) (principal : VerifiedPrincipal)
    (document : ConfigurationExportDocument) (environment : ConfigurationEnvironment) (w : World τ) :
    ImportTarget τ where
  environment := environment
  variableViews := (w.configuration.variablesOf
    ⟨principal.tenantId, gateway.application, environment⟩).map variableView
  secretViews := (w.configuration.secretsOf
    ⟨principal.tenantId, gateway.application, environment⟩).map secretView
  endpoints :=
    if deps.webhooks.isSome && !document.webhookEndpoints.isEmpty then
      ((w.webhooks.endpoints.find fun e => e.tenantId == principal.tenantId).filter fun e =>
        e.applicationId == some gateway.application).filter fun e => e.disabledAt.isNone
    else []
  schedules :=
    match deps.schedules with
    | none => []
    | some scheduler =>
      if document.schedules.isEmpty then []
      else (listedIn scheduler w principal.tenantId).filter fun s => s.enabled

/-- A view of no row under the name, where no row is. -/
theorem named_isNone {α β : Type} (t : Table String α) (owned named : α → Bool) (view : α → β)
    (q : β → Bool) (hq : ∀ a, q (view a) = named a) :
    (((t.find owned).map view).reverse.find? q).isNone =
      (t.find fun a => owned a && named a).head?.isNone := by
  rw [Bool.eq_iff_iff, Option.isNone_iff_eq_none, Option.isNone_iff_eq_none, List.find?_eq_none,
    List.head?_eq_none_iff, Table.find, Table.find, List.filter_eq_nil_iff]
  constructor
  · intro hnone row hrow hnamed
    rw [Bool.and_eq_true] at hnamed
    refine hnone (view row) ?_ ((hq row).trans hnamed.2)
    rw [List.mem_reverse]
    exact List.mem_map_of_mem (List.mem_filter.mpr ⟨hrow, hnamed.1⟩)
  · intro hnone seen hseen hnamed
    obtain ⟨row, hrow, rfl⟩ := List.mem_map.mp (List.mem_reverse.mp hseen)
    obtain ⟨hstored, howned⟩ := List.mem_filter.mp hrow
    rw [hq] at hnamed
    exact hnone row hstored (by rw [howned, hnamed]; rfl)

/-- The document's bindings whose names are neither bound nor used by a variable. -/
def missingIn (w : World τ) (scope : ConfigurationScope) (document : ConfigurationExportDocument) :
    List ConfigurationMissingSecret :=
  (document.secrets.filter fun entry => (w.configuration.bindingOf scope entry.name).isNone &&
    (w.configuration.variableOf scope entry.name).isNone).map fun entry =>
      { name := entry.name, required := entry.required, sourceCredentialRef := entry.credentialRef }

omit [Timestamp τ] in
theorem missingOf_targetIn (gateway : ServiceGateway) (principal : VerifiedPrincipal)
    (document : ConfigurationExportDocument) (environment : ConfigurationEnvironment) (w : World τ) :
    missingOf (deps.targetIn gateway principal document environment w) document.secrets =
      missingIn w ⟨principal.tenantId, gateway.application, environment⟩ document := by
  unfold missingOf missingIn
  congr 1
  refine List.filter_congr fun entry _ => ?_
  have hbound : ((deps.targetIn gateway principal document environment w).secretView?
      entry.name).isNone = (w.configuration.bindingOf
        ⟨principal.tenantId, gateway.application, environment⟩ entry.name).isNone :=
    named_isNone w.configuration.secretTable _ _ secretView _ fun _ => rfl
  have hused : ((deps.targetIn gateway principal document environment w).variableView?
      entry.name).isNone = (w.configuration.variableOf
        ⟨principal.tenantId, gateway.application, environment⟩ entry.name).isNone :=
    named_isNone w.configuration.variableTable _ _ variableView _ fun _ => rfl
  rw [hbound, hused, Bool.and_comm]

/-! ## Reading -/

/-- What an import reads before it decides. -/
def readImport (input : JsValue) (caller : PrincipalInput) (environment : JsValue) :
    Svc τ (VerifiedPrincipal × ConfigurationExportDocument × ImportTarget τ) := do
  let principal ← requireVerifiedPrincipal caller
  let document ← check (parseExportDocument deps.jsonParse input)
  let environment ← check (importEnvironment document environment)
  let target ← deps.readTarget principal document environment
  pure (principal, document, target)

/-- An import reads, and then decides on the document: whether it is a dry run matters only
to the second part. -/
theorem importConfiguration_eq (input : JsValue) (options : ConfigurationImportOptions) :
    deps.importConfiguration input options =
      (deps.readImport input options.principal options.environment).bind fun read =>
        deps.importDocument read.2.2 options.dryRun options.overwrite read.1 read.2.1 := by
  unfold importConfiguration readImport
  simp only [Task.bind_eq, Task.bind_assoc]
  rfl

/-- A read of the target. -/
def ReadFrom (w : World τ) (input : JsValue) (caller : PrincipalInput) (environment : JsValue)
    (read : VerifiedPrincipal × ConfigurationExportDocument × ImportTarget τ) : Prop :=
  ∃ gateway env hasScopes, caller = .object read.1 hasScopes ∧
    deps.configuration.authority = some gateway ∧
    parseExportDocument deps.jsonParse input = .ok read.2.1 ∧
    importEnvironment read.2.1 environment = .ok env ∧
    read.2.2 = deps.targetIn gateway read.1 read.2.1 env w

omit [Timestamp τ] in
/-- What is read is determined by what there is to read. -/
theorem ReadFrom.unique {w : World τ} {input environment : JsValue} {caller : PrincipalInput}
    {read read' : VerifiedPrincipal × ConfigurationExportDocument × ImportTarget τ}
    (h : deps.ReadFrom w input caller environment read)
    (h' : deps.ReadFrom w input caller environment read') : read = read' := by
  obtain ⟨gateway, env, hasScopes, hcaller, hgateway, hparse, henv, htarget⟩ := h
  obtain ⟨gateway', env', hasScopes', hcaller', hgateway', hparse', henv', htarget'⟩ := h'
  obtain ⟨principal, document, target⟩ := read
  obtain ⟨principal', document', target'⟩ := read'
  simp only at hcaller hcaller' hparse hparse' henv henv' htarget htarget'
  obtain ⟨rfl, -⟩ := PrincipalInput.object.inj (hcaller.symm.trans hcaller')
  obtain rfl := Option.some.inj (hgateway.symm.trans hgateway')
  obtain rfl := Except.ok.inj (hparse.symm.trans hparse')
  obtain rfl := Except.ok.inj (henv.symm.trans henv')
  rw [htarget, htarget']

theorem uses_scheduleList (scheduler : ScheduleService τ) (tenantId : String) (caller : PrincipalInput)
    (createdBy : Option String) :
    Task.Uses (S := services τ) listCalls (scheduler.list tenantId caller createdBy) := by
  unfold ScheduleService.list
  refine Task.Uses.bind ((uses_requireVerifiedPrincipal _).mono authority_lists) fun principal => ?_
  refine uses_check fun tenant => uses_check fun gateway => ?_
  refine gateway.uses_execute authority_lists _ _ _ _ fun _ _ => ?_
  exact Task.Uses.bind (Task.uses_perform rfl) fun _ => trivial

/-- The reading makes no other calls than those of lists. -/
theorem uses_readImport (input : JsValue) (caller : PrincipalInput) (environment : JsValue) :
    Task.Uses (S := services τ) listCalls (deps.readImport input caller environment) := by
  unfold readImport readTarget
  refine Task.Uses.bind ((uses_requireVerifiedPrincipal _).mono authority_lists) fun principal => ?_
  refine uses_check fun document => uses_check fun env => ?_
  refine Task.Uses.bind (uses_check fun gateway => ?_) fun _ => trivial
  refine (uses_configurationList deps.configuration _ _).bind fun current => ?_
  refine Task.Uses.bind ?_ fun endpoints => Task.Uses.bind ?_ fun _ => trivial
  · unfold readTargetEndpoints
    split
    · refine Task.Uses.bind ?_ fun _ => trivial
      unfold readEndpoints
      refine gateway.uses_execute authority_lists _ _ _ _ fun _ _ => ?_
      exact Task.Uses.bind (Task.uses_perform rfl) fun _ => trivial
    · trivial
  · unfold readTargetSchedules
    split
    · trivial
    · split
      · trivial
      · exact (uses_scheduleList ..).bind fun _ => trivial

/-! ## What the reading answers with -/

omit [Timestamp τ] in
theorem environmentOf_text (environment : ConfigurationEnvironment) :
    environmentOf (.str environment.text) = some environment := by
  cases environment <;> decide

/-- A call of the configuration store that reads. -/
theorem ensures_configuration_read {op : ConfigurationOp τ} {w : World τ} {a : op.Out}
    (hexec : ConfigurationOp.exec w.configuration op = (.ok a, w.configuration)) :
    Task.Ensures (S := services τ) (alone τ) op.perform w
      (fun r w' => w' = w ∧ ∀ b, r = .ok b → b = a) := by
  refine ensures_alone_stored _ fun choice => ?_
  simp only [AppOp.exec, hexec]

/-- Whose configuration it is: the caller's, in the application of the gateway. -/
def OwnedAs (service : ConfigurationService) (scope : ScopeInput) (caller : PrincipalInput)
    (owned : VerifiedPrincipal × ConfigurationScope) : Prop :=
  ∃ gateway environment hasScopes, service.authority = some gateway ∧
    caller = .object owned.1 hasScopes ∧ environmentOf scope.environment = some environment ∧
    owned.2 = ⟨owned.1.tenantId, gateway.application, environment⟩

omit [Timestamp τ] in
theorem yields_own (service : ConfigurationService) (scope : ScopeInput) (caller : PrincipalInput) :
    Task.Yields (S := services τ) (OwnedAs service scope caller) (service.own (τ := τ) scope caller) := by
  unfold ConfigurationService.own ConfigurationService.resolveOwnership
  refine (Task.yields_ofExcept (Q := fun gateway => service.authority = some gateway) ?_).bind ?_
  · intro gateway hgateway
    unfold ConfigurationService.gateway at hgateway
    split at hgateway
    · next hauthority => rw [hauthority, Except.ok.inj hgateway]
    · cases hgateway
  · intro gateway hgateway
    refine (yields_requireVerifiedPrincipal caller).bind ?_
    rintro principal ⟨hasScopes, hcaller⟩
    refine Task.Yields.of_bind fun _ => ?_
    refine (Task.yields_ofExcept (Q := fun tenantId => tenantId = principal.tenantId) ?_).bind ?_
    · exact fun tenantId htenant => (resolveTenant_eq_ok.mp htenant).1
    · rintro tenantId rfl
      split
      · trivial
      · split
        · trivial
        · next environment henvironment =>
          exact ⟨gateway, environment, hasScopes, hgateway, hcaller, henvironment, rfl⟩

/-- What is listed of a scope. -/
def ListedFrom (service : ConfigurationService) (w : World τ) (scope : ScopeInput)
    (caller : PrincipalInput) (listed : ConfigurationList τ) : Prop :=
  ∃ owned, OwnedAs service scope caller owned ∧
    listed.variableViews = (w.configuration.variablesOf owned.2).map variableView ∧
    listed.secretViews = (w.configuration.secretsOf owned.2).map secretView

/-- **What `list` answers with**, however the host decides. -/
theorem ensures_configurationList (service : ConfigurationService) (scope : ScopeInput)
    (caller : PrincipalInput) {w₀ w : World τ} (hsame : SameStores w₀ w) :
    (service.list scope caller).Ensures (alone τ) w (fun r w' => SameStores w₀ w' ∧
      ∀ listed, r = .ok listed → ListedFrom service w₀ scope caller listed) := by
  unfold ConfigurationService.list
  have howned := ((sameStores_kept w₀).ensures (uses_own service (fun _ h => h) scope caller)
    hsame).yields (yields_own service scope caller)
  refine Task.Ensures.bind howned ?_ (fun e _ h => kept_error h.1 e)
  rintro owned w₁ ⟨hsame₁, hscope⟩
  refine Task.Ensures.bind (Task.ensures_ofExcept _ w₁) ?_ ?_
  · rintro gateway w₂ ⟨-, rfl⟩
    refine ensures_execute_keeping (Q := ListedFrom service w₀ scope caller)
      (sameStores_kept w₀).gateway
      (fun context tools w₃ hsame₃ => ?_) hsame₁
    refine Task.Ensures.bind (ensures_configuration_read rfl) ?_ ?_
    · rintro stored w₄ ⟨rfl, hstored⟩
      refine Task.Ensures.bind (ensures_configuration_read rfl) ?_ ?_
      · rintro bindings w₅ ⟨rfl, hbindings⟩
        refine ⟨hsame₃, fun listed hlisted => ⟨owned, hscope owned rfl, ?_, ?_⟩⟩
        · rw [← Except.ok.inj hlisted, hstored stored rfl, hsame₃.configuration]
        · rw [← Except.ok.inj hlisted, hbindings bindings rfl, hsame₃.configuration]
      · rintro e w₅ ⟨rfl, -⟩
        exact kept_error hsame₃ e
    · rintro e w₄ ⟨rfl, -⟩
      exact kept_error hsame₃ e
  · rintro e w₂ ⟨-, rfl⟩
    exact kept_error hsame₁ e

theorem ensures_readTargetEndpoints (gateway : ServiceGateway) (principal : VerifiedPrincipal)
    (document : ConfigurationExportDocument) (environment : ConfigurationEnvironment)
    {w₀ w : World τ} (hsame : SameStores w₀ w) :
    (deps.readTargetEndpoints gateway principal document).Ensures (alone τ) w (fun r w' =>
      SameStores w₀ w' ∧ ∀ endpoints, r = .ok endpoints →
        endpoints = (deps.targetIn gateway principal document environment w₀).endpoints) := by
  unfold readTargetEndpoints targetIn
  split
  · next hread =>
    have hlisted : (readEndpoints (τ := τ) gateway principal).Ensures (alone τ) w (fun r w' =>
        SameStores w₀ w' ∧ ∀ endpoints, r = .ok endpoints → endpoints =
          (w₀.webhooks.endpoints.find fun e => e.tenantId == principal.tenantId).filter fun e =>
            e.applicationId == some gateway.application) := by
      unfold readEndpoints
      refine ensures_execute_issued (sameStores_kept w₀) alone_byExecution
        (fun context tools w₁ hissued hsame₁ => ?_) hsame
      refine Task.Ensures.bind (ensures_alone_stored (.webhooks
        (.listEndpoints principal.tenantId)) fun _ => rfl) ?_ ?_
      · rintro rows w₂ ⟨rfl, hrows⟩
        refine ⟨hsame₁, fun endpoints hendpoints => ?_⟩
        rw [← Except.ok.inj hendpoints, hrows rows rfl, hissued.application, hsame₁.webhooks]
      · rintro e w₂ ⟨rfl, -⟩
        exact kept_error hsame₁ e
    refine Task.Ensures.bind hlisted ?_ (fun e _ h => kept_error h.1 e)
    rintro rows w₁ ⟨hsame₁, hrows⟩
    refine ⟨hsame₁, fun endpoints hendpoints => ?_⟩
    rw [← Except.ok.inj hendpoints, hrows rows rfl]
  · exact ⟨hsame, fun endpoints hendpoints => (Except.ok.inj hendpoints).symm⟩

theorem ensures_scheduleList (scheduler : ScheduleService τ) (tenantId : String)
    (principal : VerifiedPrincipal) {w₀ w : World τ} (hsame : SameStores w₀ w) :
    (scheduler.list tenantId (.of principal) none).Ensures (alone τ) w (fun r w' =>
      SameStores w₀ w' ∧ ∀ schedules, r = .ok schedules →
        schedules = listedIn scheduler w₀ principal.tenantId) := by
  unfold ScheduleService.list
  have hverified := ((sameStores_kept w₀).ensures (uses_requireVerifiedPrincipal (.of principal))
    hsame).yields (yields_requireVerifiedPrincipal _)
  refine Task.Ensures.bind hverified ?_ (fun e _ h => kept_error h.1 e)
  rintro principal' w₁ ⟨hsame₁, hcaller⟩
  obtain ⟨hasScopes, hcaller⟩ := hcaller principal' rfl
  obtain ⟨rfl, -⟩ := PrincipalInput.object.inj hcaller
  refine Task.Ensures.bind (Task.ensures_ofExcept _ w₁) ?_ ?_
  · rintro tenant w₂ ⟨htenant, rfl⟩
    obtain ⟨rfl, -⟩ := resolveTenant_eq_ok.mp htenant.symm
    refine Task.Ensures.bind (Task.ensures_ofExcept _ w₂) ?_ ?_
    · rintro gateway w₃ ⟨hgateway, rfl⟩
      have hlisted : listedIn scheduler w₀ principal.tenantId =
          (w₀.schedules.find fun s => s.tenantId == principal.tenantId).filter fun s =>
            s.applicationId == some gateway.application := by
        unfold ScheduleService.gateway at hgateway
        unfold listedIn
        cases hauthority : scheduler.authority with
        | none =>
          rw [hauthority] at hgateway
          cases hgateway
        | some g =>
          rw [hauthority] at hgateway
          rw [Except.ok.inj hgateway]
      refine ensures_execute_keeping (sameStores_kept w₀).gateway
        (fun context tools w₄ hsame₄ => ?_) hsame₁
      refine Task.Ensures.bind (ensures_alone_stored (.schedules
        (.list principal.tenantId)) fun _ => rfl) ?_ ?_
      · rintro rows w₅ ⟨rfl, hrows⟩
        refine ⟨hsame₄, fun schedules hschedules => ?_⟩
        rw [← Except.ok.inj hschedules, hlisted, hrows rows rfl, hsame₄.schedules]
        rfl
      · rintro e w₅ ⟨rfl, -⟩
        exact kept_error hsame₄ e
    · rintro e w₃ ⟨-, rfl⟩
      exact kept_error hsame₁ e
  · rintro e w₂ ⟨-, rfl⟩
    exact kept_error hsame₁ e

theorem ensures_readTargetSchedules (gateway : ServiceGateway) (principal : VerifiedPrincipal)
    (document : ConfigurationExportDocument) (environment : ConfigurationEnvironment)
    {w₀ w : World τ} (hsame : SameStores w₀ w) :
    (deps.readTargetSchedules principal document).Ensures (alone τ) w (fun r w' =>
      SameStores w₀ w' ∧ ∀ schedules, r = .ok schedules →
        schedules = (deps.targetIn gateway principal document environment w₀).schedules) := by
  unfold readTargetSchedules targetIn
  cases deps.schedules with
  | none => exact ⟨hsame, fun schedules hschedules => (Except.ok.inj hschedules).symm⟩
  | some scheduler =>
    simp only
    split
    · exact ⟨hsame, fun schedules hschedules => (Except.ok.inj hschedules).symm⟩
    · refine Task.Ensures.bind (ensures_scheduleList scheduler _ principal hsame) ?_
        (fun e _ h => kept_error h.1 e)
      rintro rows w₁ ⟨hsame₁, hrows⟩
      refine ⟨hsame₁, fun schedules hschedules => ?_⟩
      rw [← Except.ok.inj hschedules, hrows rows rfl]

/-- **What the reading answers with**, however the host decides: the target as it is. -/
theorem ensures_readImport (input : JsValue) (caller : PrincipalInput) (environment : JsValue)
    (w : World τ) : (deps.readImport input caller environment).Ensures (alone τ) w (fun r w' =>
      SameStores w w' ∧ ∀ read, r = .ok read → deps.ReadFrom w input caller environment read) := by
  unfold readImport
  have hverified := ((sameStores_kept w).ensures (uses_requireVerifiedPrincipal caller)
    (SameStores.refl w)).yields (yields_requireVerifiedPrincipal caller)
  refine Task.Ensures.bind hverified ?_ (fun e _ h => kept_error h.1 e)
  rintro principal w₁ ⟨hsame₁, hcaller⟩
  obtain ⟨hasScopes, hcaller⟩ := hcaller principal rfl
  refine Task.Ensures.bind (Task.ensures_ofExcept _ w₁) ?_ ?_
  · rintro document w₂ ⟨hdocument, rfl⟩
    refine Task.Ensures.bind (Task.ensures_ofExcept _ w₂) ?_ ?_
    · rintro env w₃ ⟨henv, rfl⟩
      unfold readTarget
      simp only [Task.bind_eq, Task.bind_assoc]
      refine Task.Ensures.bind (Task.ensures_ofExcept _ w₃) ?_ ?_
      · rintro gateway w₄ ⟨hgateway, rfl⟩
        have hauthority : deps.configuration.authority = some gateway := by
          unfold ConfigurationService.gateway at hgateway
          split at hgateway
          · next hauthority => rw [hauthority, Except.ok.inj hgateway]
          · cases hgateway
        refine Task.Ensures.bind (ensures_configurationList deps.configuration _ _ hsame₁) ?_
          (fun e _ h => kept_error h.1 e)
        rintro current w₅ ⟨hsame₅, hcurrent⟩
        obtain ⟨owned, hscope, hvariableViews, hsecretViews⟩ := hcurrent current rfl
        obtain ⟨gateway', env', hasScopes', hgateway', hcaller', henv', howned⟩ := hscope
        obtain rfl := Option.some.inj (hauthority.symm.trans hgateway')
        obtain ⟨hprincipal, -⟩ := PrincipalInput.object.inj hcaller'
        rw [environmentOf_text] at henv'
        obtain rfl := Option.some.inj henv'
        rw [howned, ← hprincipal] at hvariableViews hsecretViews
        refine Task.Ensures.bind (deps.ensures_readTargetEndpoints gateway principal document env
          hsame₅) ?_ (fun e _ h => kept_error h.1 e)
        rintro endpoints w₆ ⟨hsame₆, hendpoints⟩
        refine Task.Ensures.bind (deps.ensures_readTargetSchedules gateway principal document env
          hsame₆) ?_ (fun e _ h => kept_error h.1 e)
        rintro schedules w₇ ⟨hsame₇, hschedules⟩
        refine ⟨hsame₇, fun read hread => ?_⟩
        rw [← Except.ok.inj hread]
        refine ⟨gateway, env, hasScopes, hcaller, hauthority, hdocument.symm, henv.symm, ?_⟩
        simp only [hvariableViews, hsecretViews, hendpoints endpoints rfl, hschedules schedules rfl]
        rfl
      · rintro e w₄ ⟨-, rfl⟩
        exact kept_error hsame₁ e
    · rintro e w₃ ⟨-, rfl⟩
      exact kept_error hsame₁ e
  · rintro e w₂ ⟨-, rfl⟩
    exact kept_error hsame₁ e

/-! ## A dry run and a real run -/

/-- Two reports of one plan: they differ at most in what was applied, and what failed. -/
structure SamePlan (report report' : ConfigurationImportReport) : Prop where
  items : report.items.map ConfigurationImportItem.toPlannedItem =
    report'.items.map ConfigurationImportItem.toPlannedItem
  missingSecrets : report.missingSecrets = report'.missingSecrets
  counts : { report.summary with failed := 0 } = { report'.summary with failed := 0 }
  environment : report.environment = report'.environment
  overwrite : report.overwrite = report'.overwrite

omit [Timestamp τ] in
theorem countAction_planned (action : ConfigurationImportAction) (items : List ConfigurationImportItem) :
    countAction action items = ((items.map ConfigurationImportItem.toPlannedItem).filter fun planned =>
      planned.action == action).length := by
  rw [List.filter_map, List.length_map]
  rfl

omit [Timestamp τ] in
/-- Reports of one plan, of one target. -/
theorem SamePlan.of_planned {target : ImportTarget τ} {overwrite : Bool} {dryRun dryRun' : Bool}
    {missingSecrets : List ConfigurationMissingSecret} {items items' : List ConfigurationImportItem}
    (h : items.map ConfigurationImportItem.toPlannedItem =
      items'.map ConfigurationImportItem.toPlannedItem) :
    SamePlan (reportOf target dryRun overwrite missingSecrets items)
      (reportOf target dryRun' overwrite missingSecrets items') := by
  refine ⟨h, rfl, ?_, rfl, rfl⟩
  simp only [reportOf, summaryOf, countAction_planned, h]

/-- What a report says of the bindings the target misses is what it misses. -/
def MissesExactly (w : World τ) (input : JsValue) (options : ConfigurationImportOptions)
    (missingSecrets : List ConfigurationMissingSecret) : Prop :=
  ∃ gateway principal hasScopes document environment,
    deps.configuration.authority = some gateway ∧
    options.principal = .object principal hasScopes ∧
    parseExportDocument deps.jsonParse input = .ok document ∧
    importEnvironment document options.environment = .ok environment ∧
    missingSecrets = missingIn w ⟨principal.tenantId, gateway.application, environment⟩ document

/-- The import with `dryRun` as given. -/
def importAs (dryRun : Bool) (input : JsValue) (options : ConfigurationImportOptions) :
    Svc τ ConfigurationImportReport :=
  deps.importConfiguration input { options with dryRun }

/-- **A dry run makes no call that writes**, whoever acts in between. -/
theorem uses_dry (input : JsValue) (options : ConfigurationImportOptions) :
    Task.Uses (S := services τ) {op | op.Reads} (deps.importAs true input options) := by
  unfold importAs
  rw [deps.importConfiguration_eq]
  refine Task.Uses.bind ((deps.uses_readImport ..).mono fun op => reads_of_lists) fun read => ?_
  obtain ⟨planned, hdry, -, -⟩ := deps.importDocument_plan read.2.2 options.overwrite read.1 read.2.1
  rw [hdry]
  trivial

/-- **No run makes a call that writes a binding**, whoever acts in between. -/
theorem uses_import (dryRun : Bool) (input : JsValue) (options : ConfigurationImportOptions) :
    Task.Uses (S := services τ) {op | op.KeepsBindings} (deps.importAs dryRun input options) := by
  unfold importAs
  rw [deps.importConfiguration_eq]
  have hread := (deps.uses_readImport input options.principal options.environment).mono
    lists_bindingFree
  refine Task.Uses.bind (hread.mono fun op => keepsBindings_of_free) fun read => ?_
  obtain ⟨planned, hdry, -, hreal⟩ :=
    deps.importDocument_plan read.2.2 options.overwrite read.1 read.2.1
  cases dryRun with
  | true =>
    rw [hdry]
    trivial
  | false => exact hreal.mono fun op => keepsBindings_of_free

/-- A run that resolves has read the target, and reports the plan of what it read. -/
theorem resolved_plan {dryRun : Bool} {input : JsValue} {options : ConfigurationImportOptions}
    {w w' : World τ} {report : ConfigurationImportReport}
    (h : Task.Settles (alone τ) (deps.importAs dryRun input options) w (.ok report) w') :
    ∃ read w₁ items,
      Task.Settles (alone τ) (deps.readImport input options.principal options.environment) w
        (.ok read) w₁ ∧
      deps.ReadFrom w input options.principal options.environment read ∧
      report = reportOf read.2.2 dryRun options.overwrite (missingOf read.2.2 read.2.1.secrets) items ∧
      deps.importDocument read.2.2 true options.overwrite read.1 read.2.1 = .settled (.ok
        (reportOf read.2.2 true options.overwrite (missingOf read.2.2 read.2.1.secrets)
          ((items.map ConfigurationImportItem.toPlannedItem).map PlannedItem.unapplied))) ∧
      (dryRun = true →
        items = (items.map ConfigurationImportItem.toPlannedItem).map PlannedItem.unapplied) := by
  unfold importAs at h
  rw [deps.importConfiguration_eq] at h
  rcases h.of_bind with ⟨read, w₁, hread, hrest⟩ | ⟨e, he, -⟩
  · have hfrom := ((deps.ensures_readImport ..).settles hread).2 read rfl
    obtain ⟨planned, hdry, hreal, -⟩ :=
      deps.importDocument_plan read.2.2 options.overwrite read.1 read.2.1
    cases dryRun with
    | true =>
      rw [hdry] at hrest
      obtain rfl := Except.ok.inj hrest.1
      refine ⟨read, w₁, _, hread, hfrom, rfl, ?_, fun _ => ?_⟩
      · rw [unapplied_toPlannedItem]
        exact hdry
      · rw [unapplied_toPlannedItem]
    | false =>
      obtain ⟨report', hok, items, hitems, hreport⟩ := (hreal (alone τ) w₁).settles hrest
      obtain rfl := Except.ok.inj hok
      refine ⟨read, w₁, items, hread, hfrom, hreport, ?_, fun h => nomatch h⟩
      rw [hitems]
      exact hdry
  · cases he

/-- **A dry run is the real plan.** It writes nothing, and no run writes a binding, whoever
acts in between. From one state, every dry run and every real run report one plan, and the
bindings they miss are those the target misses; a real run that reports has a dry run beside
it, and where one throws before it decides the other throws the same. -/
theorem dryRun_is_the_plan (deps : ConfigurationTransferDependencies τ) (input : JsValue)
    (options : ConfigurationImportOptions) (w : World τ) :
    Task.Uses (S := services τ) {op | op.Reads} (deps.importAs true input options) ∧
    Task.Uses (S := services τ) {op | op.KeepsBindings} (deps.importAs false input options) ∧
    (∀ plan w₁ report w₂,
      Task.Settles (alone τ) (deps.importAs true input options) w (.ok plan) w₁ →
      Task.Settles (alone τ) (deps.importAs false input options) w (.ok report) w₂ →
      SamePlan plan report ∧ deps.MissesExactly w input options report.missingSecrets ∧
        (∀ item ∈ plan.items, item.applied = false ∧ item.error = none) ∧ plan.summary.failed = 0) ∧
    (∀ report w₂, Task.Settles (alone τ) (deps.importAs false input options) w (.ok report) w₂ →
      ∃ plan w₁, Task.Settles (alone τ) (deps.importAs true input options) w (.ok plan) w₁) ∧
    (∀ e w', Task.Settles (alone τ) (deps.importAs true input options) w (.error e) w' ↔
      Task.Settles (alone τ) (deps.importAs false input options) w (.error e) w') := by
  refine ⟨deps.uses_dry input options, deps.uses_import false input options, ?_, ?_, fun e w' => ?_⟩
  · intro plan w₁ report w₂ hplan hreport
    obtain ⟨read, _, items, -, hfrom, rfl, hdry, hunapplied⟩ := deps.resolved_plan hplan
    obtain ⟨read', _, items', -, hfrom', rfl, hdry', -⟩ := deps.resolved_plan hreport
    obtain rfl := ReadFrom.unique deps hfrom hfrom'
    -- both are reports of what a dry run of this reading settles with
    have hplanned : items.map ConfigurationImportItem.toPlannedItem =
        items'.map ConfigurationImportItem.toPlannedItem := by
      have heq := congrArg ConfigurationImportReport.items
        (Except.ok.inj (Task.settled.inj (hdry.symm.trans hdry')))
      have heq' := congrArg (List.map ConfigurationImportItem.toPlannedItem) heq
      simpa only [reportOf, unapplied_toPlannedItem] using heq'
    have hdryItems : ∀ item ∈ items, item.applied = false ∧ item.error = none := by
      intro item hitem
      rw [hunapplied rfl] at hitem
      obtain ⟨planned, -, rfl⟩ := List.mem_map.mp hitem
      exact ⟨rfl, rfl⟩
    refine ⟨SamePlan.of_planned hplanned, ?_, hdryItems, ?_⟩
    · obtain ⟨gateway, env, hasScopes, hcaller, hauthority, hparse, henv, htarget⟩ := hfrom
      refine ⟨gateway, read.1, hasScopes, read.2.1, env, hauthority, hcaller, hparse, henv, ?_⟩
      rw [reportOf, htarget]
      exact deps.missingOf_targetIn gateway read.1 read.2.1 env w
    · show (items.filter fun item => item.error.isSome).length = 0
      rw [List.length_eq_zero_iff, List.filter_eq_nil_iff]
      intro item hitem
      rw [(hdryItems item hitem).2]
      simp
  · intro report w₂ hreport
    obtain ⟨read, w₁, items, hread, -, -, hdry, -⟩ := deps.resolved_plan hreport
    refine ⟨reportOf read.2.2 true options.overwrite (missingOf read.2.2 read.2.1.secrets)
      ((items.map ConfigurationImportItem.toPlannedItem).map PlannedItem.unapplied), w₁, ?_⟩
    unfold importAs
    rw [deps.importConfiguration_eq]
    refine hread.bind ?_
    show Task.Settles (alone τ) (deps.importDocument read.2.2 true options.overwrite read.1 read.2.1)
      w₁ _ w₁
    rw [hdry]
    exact ⟨rfl, rfl⟩
  · unfold importAs
    rw [deps.importConfiguration_eq, deps.importConfiguration_eq]
    -- only the reading throws
    constructor
    · intro h
      rcases h.of_bind with ⟨read, w₁, -, hrest⟩ | ⟨e', he, hread⟩
      · obtain ⟨planned, hdry, -, -⟩ :=
          deps.importDocument_plan read.2.2 options.overwrite read.1 read.2.1
        rw [hdry] at hrest
        cases hrest.1
      · obtain rfl := Except.error.inj he
        exact hread.bind_error
    · intro h
      rcases h.of_bind with ⟨read, w₁, -, hrest⟩ | ⟨e', he, hread⟩
      · obtain ⟨planned, -, hreal, -⟩ :=
          deps.importDocument_plan read.2.2 options.overwrite read.1 read.2.1
        obtain ⟨report, hok, -⟩ := (hreal (alone τ) w₁).settles hrest
        cases hok
      · obtain rfl := Except.error.inj he
        exact hread.bind_error

end ConfigurationTransferDependencies

end AppPort
