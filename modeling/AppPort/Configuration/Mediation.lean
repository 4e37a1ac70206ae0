import AppPort.Authority.Enforcement
import AppPort.Configuration.DryRun
import AppPort.Intelligence.Binding
import AppPort.Lib.Replay

/-!
# Every change of the configuration is authorized

The configuration service, its import and the intelligence service write the variables and
bindings of one store. Over every interleaving of their calls, with failures and crashes
anywhere: a row changes only in a call whose own authorizer had allowed, for a branded
principal of the row's tenant, the capability that covers this change. And `credential.store`
does what it does in order: the value reaches custody once the store and the change of the
binding are allowed, and the binding is written once custody has confirmed the value.
-/

namespace AppPort

open Effects Effects.Platform ConfigurationTransferDependencies

variable {τ : Type}

/-! ## The platform -/

/-- What a configuration service is asked for. -/
inductive ConfigurationRequest where
  | list (scope : ScopeInput)
  | createVariable (input : VariableInput)
  | updateVariable (input : VariableInput)
  | deleteVariable (scope : ScopeInput) (name : String)
  | createSecret (input : CredentialInput)
  | rotateSecret (input : CredentialInput)
  | deleteSecret (scope : ScopeInput) (name : String)
  | storeCredential (input : Option CredentialStoreInput)

/-- The calls that change the configuration, beside those that authenticate. -/
inductive ConfigurationCall (τ : Type) where
  | authenticate (claims : PrincipalClaims) (verifiedBy : PrincipalVerification)
  | configuration (service : ConfigurationService) (request : ConfigurationRequest)
      (caller : PrincipalInput)
  | transfer (deps : ConfigurationTransferDependencies τ) (document : JsValue)
      (options : ConfigurationImportOptions)
  | intelligence (service : IntelligenceService) (call : IntelligenceCall) (caller : PrincipalInput)

namespace ConfigurationCall

/-- The authorizer of the service that is called. -/
def authority : ConfigurationCall τ → Option ServiceGateway
  | .authenticate _ _ => none
  | .configuration service _ _ => service.authority
  | .transfer deps _ _ => deps.configuration.authority
  | .intelligence service _ _ => service.authority

/-- The input of `credential.store`. -/
def storeInput : ConfigurationCall τ → Option CredentialStoreInput
  | .configuration _ (.storeCredential input) _ => input
  | _ => none

end ConfigurationCall

section platform

variable [Timestamp τ]

/-- A request as it is made; of its result only what `credential.store` returns is kept. -/
def ConfigurationService.perform (service : ConfigurationService) (caller : PrincipalInput) :
    ConfigurationRequest → Svc τ (Option (CredentialStoreResult τ))
  | .list scope => (service.list scope caller).bind fun _ => pure none
  | .createVariable input => (service.createVariable input caller).bind fun _ => pure none
  | .updateVariable input => (service.updateVariable input caller).bind fun _ => pure none
  | .deleteVariable scope name => (service.deleteVariable scope name caller).bind fun _ => pure none
  | .createSecret input => (service.createSecret input caller).bind fun _ => pure none
  | .rotateSecret input => (service.rotateSecret input caller).bind fun _ => pure none
  | .deleteSecret scope name => (service.deleteSecret scope name caller).bind fun _ => pure none
  | .storeCredential input => (service.storeCredential input caller).bind fun result =>
      pure (some result)

/-- What each call runs. -/
def configurationBody : ConfigurationCall τ → Svc τ (Option (CredentialStoreResult τ))
  | .authenticate claims verifiedBy =>
      (mintVerifiedPrincipal claims verifiedBy).bind fun _ => pure none
  | .configuration service request caller => service.perform caller request
  | .transfer deps document options =>
      (deps.importConfiguration document options).bind fun _ => pure none
  | .intelligence service call caller => (service.perform caller call).bind fun _ => pure none

/-- Whatever else happens leaves the brand and the configuration alone. -/
def configurationEnv (f : World τ → World τ) (w : World τ) : Option (World τ) :=
  some { f w with verified := w.verified, configuration := w.configuration }

abbrev configurationPlatform (τ : Type) [Timestamp τ] : Platform :=
  appPlatform (configurationBody (τ := τ)) configurationEnv

end platform

/-! ## What has to be allowed -/

/-- The calls that write variables and bindings. -/
def ConfigurationOp.changes : ConfigurationOp τ → Bool
  | .saveVariable _ _ | .deleteVariable _ | .saveSecret _ _ | .deleteSecret _ => true
  | _ => false

/-- **Who may change what.** The capability and the resource under which a call changes a
variable or a binding of this scope. -/
inductive ChangesUnder (scope : ConfigurationScope) : ConfigurationOp τ → String → ServiceResource → Prop where
  | write {item : ConfigurationVariable τ} (expected : Option Nat) :
    item.toConfigurationScope = scope → ChangesUnder scope (.saveVariable item expected)
      "configuration.write" (configurationResource scope (some item.name) "configuration" none)
  | delete {item : ConfigurationVariable τ} : item.toConfigurationScope = scope →
    ChangesUnder scope (.deleteVariable item)
      "configuration.delete" (configurationResource scope (some item.name) "configuration" none)
  | attach {item : ConfigurationSecret τ} : item.toConfigurationScope = scope →
    ChangesUnder scope (.saveSecret item none) "credential.attach"
      (configurationResource scope (some item.name) "credential" (some item.credentialRef))
  | rotate {item : ConfigurationSecret τ} (version : Nat) : item.toConfigurationScope = scope →
    ChangesUnder scope (.saveSecret item (some version)) "credential.rotate"
      (configurationResource scope (some item.name) "credential" (some item.credentialRef))
  | detach {item : ConfigurationSecret τ} : item.toConfigurationScope = scope →
    ChangesUnder scope (.deleteSecret item) "credential.detach"
      (configurationResource scope (some item.name) "credential" none)
  /-- The selection of an intelligence provider is a variable of a name of its own. -/
  | select {item : ConfigurationVariable τ} (expected : Option Nat) (ref : Option String) :
    item.toConfigurationScope = scope → item.name = INTELLIGENCE_SELECTION_NAME →
    ChangesUnder scope (.saveVariable item expected)
      "intelligence.write" (intelligenceResource scope "intelligence" ref)
  /-- And its credential a binding of a name of its own. -/
  | bindSelected {item : ConfigurationSecret τ} (expected : Option Nat) :
    item.toConfigurationScope = scope → item.name = INTELLIGENCE_CREDENTIAL_NAME →
    ChangesUnder scope (.saveSecret item expected)
      "intelligence.write" (intelligenceResource scope "intelligence" (some item.credentialRef))
  | dropSelected {item : ConfigurationSecret τ} :
    item.toConfigurationScope = scope → item.name = INTELLIGENCE_CREDENTIAL_NAME →
    ChangesUnder scope (.deleteSecret item)
      "intelligence.write" (intelligenceResource scope "intelligence" none)
  | setCredential {item : ConfigurationSecret τ} (expected : Option Nat) :
    item.toConfigurationScope = scope → item.name = INTELLIGENCE_CREDENTIAL_NAME →
    ChangesUnder scope (.saveSecret item expected) "intelligence.credential.set"
      (intelligenceResource scope "credential" (some item.credentialRef))
  | removeCredential {item : ConfigurationSecret τ} :
    item.toConfigurationScope = scope → item.name = INTELLIGENCE_CREDENTIAL_NAME →
    ChangesUnder scope (.deleteSecret item) "intelligence.credential.remove"
      (intelligenceResource scope "credential" none)

section warrants

variable [Timestamp τ]

/-- The authorizer allowed what covers this change, in the scope of the gateway's
application, for a branded principal of the scope's tenant. -/
def Warranted (own : List (configurationPlatform τ).Step) (authority : Option ServiceGateway)
    (op : ConfigurationOp τ) : Prop :=
  ∃ scope capability resource gateway principal decisionId,
    ChangesUnder scope op capability resource ∧ authority = some gateway ∧
    scope.tenantId = principal.tenantId ∧ scope.applicationId = gateway.application ∧
    Authorized own gateway capability (.of principal) resource decisionId

/-- The name is no variable, and the binding stands at the reference already or its change
is allowed. -/
def BindingAllowed (own : List (configurationPlatform τ).Step) (gateway : ServiceGateway)
    (principal : VerifiedPrincipal) (owned : ConfigurationScope) (name ref : String) : Prop :=
  Answered own (.configuration (.getVariable owned name)) (.ok none) ∧
  ∃ current, Answered own (.configuration (.getSecret owned name)) (.ok current) ∧
    ∀ capability, ConfigurationService.bindingCapability ref current = some capability →
      ∃ decisionId, Authorized own gateway capability (.of principal)
        (configurationResource owned (some name) "credential" (some ref)) decisionId

/-- What `credential.store` had been answered when the value reaches custody: its input is
valid, the store is allowed for this reference and this caller, and so is the binding. -/
structure StoreAllowed (own : List (configurationPlatform τ).Step)
    (authority : Option ServiceGateway) (input : CredentialStoreInput) (request : SecretRequest)
    (value : String) : Prop where
  ref : requireCredentialRef input.ref "ref" = .ok request.credentialRef
  value : validateCredentialValue input.value = .ok value
  allowed : ∃ gateway principal owned name, authority = some gateway ∧
    owned.tenantId = principal.tenantId ∧ owned.applicationId = gateway.application ∧
    request.tenantId = owned.tenantId ∧
    ConfigurationService.namedBinding input.name = .ok name ∧
    Authorized own gateway "credential.store" (.of principal)
      (configurationResource owned name "credential" (some request.credentialRef))
      request.authorizationRef ∧
    ∀ bound, name = some bound →
      BindingAllowed own gateway principal owned bound request.credentialRef

/-- Custody confirmed that it stored the value of the input under the reference. -/
def ConfirmedBy (own : List (configurationPlatform τ).Step) (input : CredentialStoreInput)
    (ref : String) (stored : SecretCustodyWriteResult) : Prop :=
  ∃ request value answer capability result,
    Answered own (.host (.custodyStore request value)) (.ok answer) ∧
    request.credentialRef = ref ∧ validateCredentialValue input.value = .ok value ∧
    ServiceGateway.custodyAnswer answer capability = .ok result ∧
    storedResult capability result = .ok stored

/-- When a step of these calls may be taken. -/
structure ConfigurationAllowed (own : List (configurationPlatform τ).Step)
    (step : (configurationPlatform τ).Step) : Prop where
  warranted : ∀ op, step.op = .configuration op → op.changes = true →
    Warranted own step.call.authority op
  stores : ∀ input request value, step.call.storeInput = some input →
    step.op = .host (.custodyStore request value) →
    StoreAllowed own step.call.authority input request value
  binds : ∀ input op, step.call.storeInput = some input → step.op = .configuration op →
    op.changes = true → ∃ item expected stored, op = .saveSecret item expected ∧
      requireCredentialRef input.ref "ref" = .ok item.credentialRef ∧
      ConfirmedBy own input item.credentialRef stored

/-- The binding that was asked for, at the reference, as it was read or written. -/
def BoundAs (own : List (configurationPlatform τ).Step) (name : Option String) (ref : String)
    (binding : Option (ConfigurationSecretView τ)) : Prop :=
  match name with
  | none => binding = none
  | some name => ∃ item, binding = some (secretView item) ∧ item.name = name ∧
      item.credentialRef = ref ∧
      (Answered own (.configuration (.getSecret item.toConfigurationScope name)) (.ok (some item)) ∨
        ∃ expected, Answered own (.configuration (.saveSecret item expected)) (.ok ()))

/-- What `credential.store` returns: what custody confirmed, and the binding. -/
def StoredAs (own : List (configurationPlatform τ).Step) (input : CredentialStoreInput)
    (result : CredentialStoreResult τ) : Prop :=
  requireCredentialRef input.ref "ref" = .ok result.ref ∧
  ConfirmedBy own input result.ref ⟨result.version, result.storedAt⟩ ∧
  ∃ name, ConfigurationService.namedBinding input.name = .ok name ∧
    BoundAs own name result.ref result.binding

/-- How a call settles. -/
def ConfigurationSettled (call : ConfigurationCall τ)
    (r : Except JsError (Option (CredentialStoreResult τ)))
    (own : List (configurationPlatform τ).Step) : Prop :=
  ∀ input result, call.storeInput = some input → r = .ok (some result) → StoredAs own input result

/-- The traces of configuration processes. -/
abbrev configurationTraces (τ : Type) [Timestamp τ] : Discipline (configurationPlatform τ) :=
  traced ConfigurationAllowed ConfigurationSettled

end warrants

/-! ## Conformance -/

section conformance

variable [Timestamp τ] {α : Type} {call : ConfigurationCall τ}
  {own : List (configurationPlatform τ).Step}

theorem Warranted.mono {own own' : List (configurationPlatform τ).Step}
    {authority : Option ServiceGateway} {op : ConfigurationOp τ} (h : Warranted own authority op)
    (hs : own <:+ own') : Warranted own' authority op := by
  obtain ⟨scope, capability, resource, gateway, principal, decisionId, hunder, hauthority, htenant,
    happlication, hallowed⟩ := h
  exact ⟨scope, capability, resource, gateway, principal, decisionId, hunder, hauthority, htenant,
    happlication, hallowed.mono hs⟩

theorem ConfirmedBy.mono {own own' : List (configurationPlatform τ).Step}
    {input : CredentialStoreInput} {ref : String} {stored : SecretCustodyWriteResult}
    (h : ConfirmedBy own input ref stored) (hs : own <:+ own') : ConfirmedBy own' input ref stored := by
  obtain ⟨request, value, answer, capability, result, hanswered, hrest⟩ := h
  exact ⟨request, value, answer, capability, result, hanswered.mono hs, hrest⟩

theorem BindingAllowed.mono {own own' : List (configurationPlatform τ).Step}
    {gateway : ServiceGateway} {principal : VerifiedPrincipal} {owned : ConfigurationScope}
    {name ref : String} (h : BindingAllowed own gateway principal owned name ref)
    (hs : own <:+ own') : BindingAllowed own' gateway principal owned name ref := by
  obtain ⟨hvariable, current, hcurrent, hallowed⟩ := h
  refine ⟨hvariable.mono hs, current, hcurrent.mono hs, fun capability hcapability => ?_⟩
  obtain ⟨decisionId, hdecision⟩ := hallowed capability hcapability
  exact ⟨decisionId, hdecision.mono hs⟩

/-- The calls that change nothing here, and in `credential.store` do not reach custody's store. -/
def unmediatedCalls (call : ConfigurationCall τ) : Set (AppOp τ) :=
  {op | (∀ o, op = .configuration o → o.changes = false) ∧
    (call.storeInput ≠ none → ∀ request value, op ≠ .host (.custodyStore request value))}

/-- The task keeps to the discipline. -/
abbrev GrowsConfiguration (call : ConfigurationCall τ) (t : Svc τ α)
    (own : List (configurationPlatform τ).Step)
    (Q : Except JsError α → List (configurationPlatform τ).Step → Prop) : Prop :=
  Traced.Grows ConfigurationAllowed ConfigurationSettled call t own Q

/-- A quiet call is always allowed. -/
theorem configurationAllowed_of {step : (configurationPlatform τ).Step}
    (hop : step.op ∈ unmediatedCalls step.call) : ConfigurationAllowed own step where
  warranted o heq hchanges := by
    rw [hop.1 o heq] at hchanges
    cases hchanges
  stores input request value hinput heq := by
    have hstoring : step.call.storeInput ≠ none := by
      rw [hinput]
      exact Option.some_ne_none _
    exact absurd heq (hop.2 hstoring request value)
  binds input o _ heq hchanges := by
    rw [hop.1 o heq] at hchanges
    cases hchanges

omit [Timestamp τ] in
theorem authority_unmediated : authorityCalls ⊆ unmediatedCalls call := by
  rintro _ ⟨o, rfl⟩
  constructor
  · intro _ h
    cases h
  · intro _ _ _ h
    cases h

theorem configurationAllowed_authority : AllowsAuthority (ConfigurationAllowed (τ := τ)) :=
  fun _ _ op _ _ _ => configurationAllowed_of (authority_unmediated (mem_authorityCalls op))

/-- A task of quiet calls. -/
theorem grows_quiet {t : Svc τ α} (ht : Task.Uses (S := services τ) (unmediatedCalls call) t) :
    GrowsConfiguration call t own (fun _ _ => True) :=
  Traced.Grows.of_uses (fun _ hop _ _ _ _ => configurationAllowed_of hop) ht

omit [Timestamp τ] in
theorem configuration_unmediated {op : ConfigurationOp τ} (h : op.changes = false) :
    .configuration op ∈ unmediatedCalls call := by
  refine ⟨fun o ho => ?_, fun _ _ _ ho => by cases ho⟩
  cases ho
  exact h

omit [Timestamp τ] in
theorem quiet_record (type : String) (scope : ConfigurationScope)
    (name kind actor operation status : String) : Task.Uses (S := services τ) (unmediatedCalls call)
      (ConfigurationService.record (τ := τ) type scope name kind actor operation status) := by
  unfold ConfigurationService.record
  refine Task.Uses.bind (uses_randomUUID.mono authority_unmediated) fun id => ?_
  refine Task.Uses.bind (uses_now.mono authority_unmediated) fun timestamp => ?_
  exact Task.uses_perform (configuration_unmediated rfl)

/-! ### Reads and writes -/

/-- What a call of the configuration store is answered. -/
theorem grows_read {op : ConfigurationOp τ} (hquiet : op.changes = false) :
    GrowsConfiguration call op.perform own (fun r own' => Answered own' (.configuration op) r ∧
      ∀ a, r = .ok a → ∃ w : World τ, (ConfigurationOp.exec w.configuration op).1 = .ok a) := by
  refine Traced.Grows.mono (Traced.Grows.perform_exec fun _ _ _ =>
    configurationAllowed_of (configuration_unmediated hquiet)) ?_
  rintro r own' - ⟨choice, before, after, hexec, hmem⟩
  refine ⟨⟨_, _, _, hmem⟩, fun a ha => ⟨before, ?_⟩⟩
  subst ha
  rcases stored_cases hexec with ⟨hres, -⟩ | ⟨_, hres, -⟩
  · exact hres.symm
  · cases hres

omit [Timestamp τ] in
theorem variableOf_eq_some {db : ConfigurationTables τ} {scope : ConfigurationScope} {name : String}
    {item : ConfigurationVariable τ} (h : db.variableOf scope name = some item) :
    item.toConfigurationScope = scope ∧ item.name = name := by
  obtain ⟨-, hitem⟩ := Table.mem_find.mp (List.mem_of_mem_head? h)
  simpa using hitem

omit [Timestamp τ] in
theorem bindingOf_eq_some {db : ConfigurationTables τ} {scope : ConfigurationScope} {name : String}
    {item : ConfigurationSecret τ} (h : db.bindingOf scope name = some item) :
    item.toConfigurationScope = scope ∧ item.name = name := by
  obtain ⟨-, hitem⟩ := Table.mem_find.mp (List.mem_of_mem_head? h)
  simpa using hitem

/-- A variable is read under its name. -/
theorem grows_getVariable (scope : ConfigurationScope) (name : String) :
    GrowsConfiguration call ((ConfigurationOp.getVariable (τ := τ) scope name).perform) own
      (fun r own' => Answered own' (.configuration (.getVariable scope name)) r ∧
        ∀ item, r = .ok (some item) → item.toConfigurationScope = scope ∧ item.name = name) := by
  refine Traced.Grows.mono (grows_read rfl) ?_
  rintro r own' - ⟨hanswered, hread⟩
  refine ⟨hanswered, fun item hitem => ?_⟩
  obtain ⟨w, hw⟩ := hread _ hitem
  exact variableOf_eq_some (Except.ok.inj hw)

/-- A binding is read under its name. -/
theorem grows_getSecret (scope : ConfigurationScope) (name : String) :
    GrowsConfiguration call ((ConfigurationOp.getSecret (τ := τ) scope name).perform) own
      (fun r own' => Answered own' (.configuration (.getSecret scope name)) r ∧
        ∀ item, r = .ok (some item) → item.toConfigurationScope = scope ∧ item.name = name) := by
  refine Traced.Grows.mono (grows_read rfl) ?_
  rintro r own' - ⟨hanswered, hread⟩
  refine ⟨hanswered, fun item hitem => ?_⟩
  obtain ⟨w, hw⟩ := hread _ hitem
  exact bindingOf_eq_some (Except.ok.inj hw)

/-- A warranted write. In `credential.store` it is that of a binding whose value custody
confirmed. -/
theorem grows_write {op : ConfigurationOp τ} (hwarranted : Warranted own call.authority op)
    (hstored : ∀ input, call.storeInput = some input → ∃ item expected stored,
      op = .saveSecret item expected ∧ requireCredentialRef input.ref "ref" = .ok item.credentialRef ∧
      ConfirmedBy own input item.credentialRef stored) :
    GrowsConfiguration call op.perform own (fun r own' => Answered own' (.configuration op) r) := by
  refine Traced.Grows.perform fun _ _ _ => ?_
  constructor
  · intro o heq _
    cases heq
    exact hwarranted
  · intro _ _ _ _ heq
    cases heq
  · intro input o hinput heq _
    cases heq
    exact hstored input hinput

omit [Timestamp τ] in
/-- Every other call's writes need no more than their warrant. -/
theorem unstored {P : CredentialStoreInput → Prop} (hcall : call.storeInput = none) :
    ∀ input, call.storeInput = some input → P input := by
  intro input hinput
  rw [hcall] at hinput
  cases hinput

/-! ### The changes of the configuration service -/

/-- A decision that covers a change warrants it. -/
theorem warranted_of {scope : ConfigurationScope} {capability : String} {resource : ServiceResource}
    {op : ConfigurationOp τ} {gateway : ServiceGateway} {principal : VerifiedPrincipal}
    {authority : Option ServiceGateway} {decisionId : String}
    (hauthority : authority = some gateway) (htenant : scope.tenantId = principal.tenantId)
    (happlication : scope.applicationId = gateway.application)
    (hallowed : Authorized own gateway capability (.of principal) resource decisionId)
    (hunder : ChangesUnder scope op capability resource) : Warranted own authority op :=
  ⟨scope, capability, resource, gateway, principal, decisionId, hunder, hauthority, htenant,
    happlication, hallowed⟩

/-- What a service found of its caller: the scope is one of the caller's tenant and of the
application of the gateway. -/
def OwnedBy (authority : Option ServiceGateway) (principal : VerifiedPrincipal)
    (owned : ConfigurationScope) : Prop :=
  ∃ gateway, authority = some gateway ∧ owned.tenantId = principal.tenantId ∧
    owned.applicationId = gateway.application

omit [Timestamp τ] in
theorem configurationGateway_ok {service : ConfigurationService} {gateway : ServiceGateway}
    (h : service.gateway = .ok gateway) : service.authority = some gateway := by
  unfold ConfigurationService.gateway at h
  split at h
  · next hauthority =>
    obtain rfl := Except.ok.inj h
    exact hauthority
  · cases h

omit [Timestamp τ] in
theorem intelligenceGateway_ok {service : IntelligenceService} {gateway : ServiceGateway}
    (h : service.gateway = .ok gateway) : service.authority = some gateway := by
  unfold IntelligenceService.gateway at h
  split at h
  · next hauthority =>
    obtain rfl := Except.ok.inj h
    exact hauthority
  · cases h

theorem grows_resolveOwnership (gateway : ServiceGateway) (scope : ScopeInput)
    (caller : PrincipalInput) :
    GrowsConfiguration call (ConfigurationService.resolveOwnership gateway scope caller) own
      (fun r _ => ∀ p, r = .ok p → OwnedBy (some gateway) p.1 p.2) := by
  unfold ConfigurationService.resolveOwnership
  refine Traced.Grows.bind (grows_quiet ((uses_requireVerifiedPrincipal _).mono authority_unmediated))
    ?_ (fun _ _ _ _ _ h => by cases h)
  intro principal own₁ _ _
  refine Traced.Grows.ofExcept_bind ?_ (fun _ _ _ h => by cases h)
  intro _ _
  refine Traced.Grows.ofExcept_bind ?_ (fun _ _ _ h => by cases h)
  intro tenantId htenant
  split
  · exact Traced.Grows.settled fun _ h => by cases h
  split
  · exact Traced.Grows.settled fun _ h => by cases h
  · refine Traced.Grows.settled fun p hp => ?_
    obtain rfl := Except.ok.inj hp
    exact ⟨gateway, rfl, (resolveTenant_eq_ok.mp htenant).1, rfl⟩

theorem grows_own (service : ConfigurationService) (scope : ScopeInput) (caller : PrincipalInput) :
    GrowsConfiguration call (service.own scope caller) own
      (fun r _ => ∀ p, r = .ok p → OwnedBy service.authority p.1 p.2) := by
  refine Traced.Grows.ofExcept_bind ?_ (fun _ _ _ h => by cases h)
  intro gateway hgateway
  rw [configurationGateway_ok hgateway]
  exact grows_resolveOwnership gateway scope caller

theorem grows_intelligenceOwn (service : IntelligenceService) (scope : IntelligenceScope)
    (caller : PrincipalInput) :
    GrowsConfiguration call (service.own scope caller) own
      (fun r _ => ∀ p, r = .ok p → OwnedBy service.authority p.1 p.2) := by
  refine Traced.Grows.ofExcept_bind ?_ (fun _ _ _ h => by cases h)
  intro gateway hgateway
  rw [intelligenceGateway_ok hgateway]
  exact grows_resolveOwnership gateway _ caller

/-- **The frame of a request.** It owns a scope, validates what it was given, and runs its
effect under its capability; what the effect meets is an allow for this scope. -/
theorem grows_request {authority : Option ServiceGateway} {found : Except JsError ServiceGateway}
    {capability : String} {principal : VerifiedPrincipal} {owned : ConfigurationScope} {resource : ServiceResource}
    {options : ExecuteOptions} {R : α → List (configurationPlatform τ).Step → Prop}
    {effect : ServiceGateway → ServiceExecutionContext τ → EffectTools τ → Svc τ α}
    (hmono : ∀ a own own', own <:+ own' → R a own → R a own')
    (hfound : ∀ gateway, found = .ok gateway → authority = some gateway)
    (howned : OwnedBy authority principal owned)
    (heffect : ∀ gateway context run own', own <:+ own' → authority = some gateway →
      owned.applicationId = gateway.application → IssuedFor context gateway resource →
      Authorized own' gateway capability (.of principal) resource context.authorization.decisionId →
      GrowsConfiguration call (effect gateway context ⟨run, context, options.provider⟩) own'
        (fun r own'' => ∀ a, r = .ok a → R a own'')) :
    GrowsConfiguration call ((check found).bind fun gateway =>
        gateway.execute capability (.of principal) resource options (effect gateway)) own
      (fun r own' => ∀ a, r = .ok a → R a own') := by
  refine Traced.Grows.ofExcept_bind ?_ (fun e _ a ha => by cases ha)
  intro gateway hgateway
  have hauthority := hfound gateway hgateway
  obtain ⟨gateway', hauthority', -, happlication⟩ := howned
  obtain rfl : gateway = gateway' := Option.some.inj (hauthority.symm.trans hauthority')
  refine grows_execute configurationAllowed_authority hmono ?_
  intro context run own' hs hissued hallowed _
  exact heffect gateway context run own' hs hauthority happlication hissued hallowed

/-- Nothing is known of what a call returns. -/
theorem grows_done {t : Svc τ α} {Q : Except JsError α → List (configurationPlatform τ).Step → Prop}
    (ht : GrowsConfiguration call t own Q) :
    GrowsConfiguration call t own (fun r _ => ∀ a, r = .ok a → True) :=
  Traced.Grows.mono ht fun _ _ _ _ _ _ => trivial

/-- A row is written, and that is recorded. -/
theorem grows_recorded {op : ConfigurationOp τ} {k : Svc τ α}
    (hwarranted : Warranted own call.authority op) (hcall : call.storeInput = none)
    (hk : Task.Uses (S := services τ) (unmediatedCalls call) k) :
    GrowsConfiguration call (op.perform.bind fun _ => k) own (fun _ _ => True) :=
  Traced.Grows.bind (grows_write hwarranted (unstored hcall)) (fun _ _ _ _ => grows_quiet hk)
    (fun _ _ _ _ => trivial)

theorem grows_createVariable (service : ConfigurationService) (input : VariableInput)
    (caller : PrincipalInput) (hauthority : call.authority = service.authority)
    (hcall : call.storeInput = none) :
    GrowsConfiguration call (service.createVariable input caller) own (fun _ _ => True) := by
  unfold ConfigurationService.createVariable
  refine Traced.Grows.bind (grows_own service _ caller) ?_ (fun _ _ _ _ => trivial)
  rintro ⟨principal, owned⟩ own₁ - howned
  refine Traced.Grows.ofExcept_bind ?_ (fun _ _ => trivial)
  intro name _
  refine Traced.Grows.ofExcept_bind ?_ (fun _ _ => trivial)
  intro value _
  refine Traced.Grows.mono (grows_request (R := fun _ _ => True) (fun _ _ _ _ _ => trivial)
    (fun _ => configurationGateway_ok) (howned _ rfl) ?_) (fun _ _ _ _ => trivial)
  intro gateway context run own₂ _ hgateway happlication _ hallowed
  refine grows_done (Q := fun _ _ => True) ?_
  refine Traced.Grows.bind (grows_getVariable owned name) ?_ (fun _ _ _ _ => trivial)
  intro current own₃ hs₃ _
  refine Traced.Grows.bind (grows_getSecret owned name) ?_ (fun _ _ _ _ => trivial)
  intro secret own₄ hs₄ _
  split
  · exact Traced.Grows.settled trivial
  refine Traced.Grows.bind (grows_quiet (uses_now.mono authority_unmediated)) ?_
    (fun _ _ _ _ => trivial)
  intro timestamp own₅ hs₅ _
  refine Traced.Grows.bind (grows_quiet (uses_randomUUID.mono authority_unmediated)) ?_
    (fun _ _ _ _ => trivial)
  intro id own₆ hs₆ _
  refine grows_recorded ?_ hcall ((quiet_record _ _ _ _ _ _ _).bind fun _ => trivial)
  have hafter := hs₃.trans (hs₄.trans (hs₅.trans hs₆))
  obtain ⟨_, -, htenant, -⟩ := howned _ rfl
  exact warranted_of (hauthority.trans hgateway) htenant happlication (hallowed.mono hafter)
    (.write none rfl)

theorem grows_updateVariable (service : ConfigurationService) (input : VariableInput)
    (caller : PrincipalInput) (hauthority : call.authority = service.authority)
    (hcall : call.storeInput = none) :
    GrowsConfiguration call (service.updateVariable input caller) own (fun _ _ => True) := by
  unfold ConfigurationService.updateVariable
  refine Traced.Grows.bind (grows_own service _ caller) ?_ (fun _ _ _ _ => trivial)
  rintro ⟨principal, owned⟩ own₁ - howned
  refine Traced.Grows.ofExcept_bind ?_ (fun _ _ => trivial)
  intro name _
  refine Traced.Grows.ofExcept_bind ?_ (fun _ _ => trivial)
  intro value _
  refine Traced.Grows.mono (grows_request (R := fun _ _ => True) (fun _ _ _ _ _ => trivial)
    (fun _ => configurationGateway_ok) (howned _ rfl) ?_) (fun _ _ _ _ => trivial)
  intro gateway context run own₂ _ hgateway happlication _ hallowed
  refine grows_done (Q := fun _ _ => True) ?_
  refine Traced.Grows.bind (grows_getVariable owned name) ?_ (fun _ _ _ _ => trivial)
  rintro current own₃ hs₃ ⟨-, hread⟩
  cases current with
  | none => exact Traced.Grows.settled trivial
  | some current =>
    obtain ⟨hscope, hname⟩ := hread current rfl
    refine Traced.Grows.bind (grows_quiet (uses_now.mono authority_unmediated)) ?_
      (fun _ _ _ _ => trivial)
    intro updatedAt own₄ hs₄ _
    refine grows_recorded ?_ hcall ((quiet_record _ _ _ _ _ _ _).bind fun _ => trivial)
    obtain ⟨_, -, htenant, -⟩ := howned _ rfl
    rw [← hname] at hallowed
    exact warranted_of (hauthority.trans hgateway) htenant happlication
      (hallowed.mono (hs₃.trans hs₄)) (.write _ hscope)

theorem grows_deleteVariable (service : ConfigurationService) (scope : ScopeInput) (name : String)
    (caller : PrincipalInput) (hauthority : call.authority = service.authority)
    (hcall : call.storeInput = none) :
    GrowsConfiguration call (service.deleteVariable scope name caller) own (fun _ _ => True) := by
  unfold ConfigurationService.deleteVariable
  refine Traced.Grows.bind (grows_own service _ caller) ?_ (fun _ _ _ _ => trivial)
  rintro ⟨principal, owned⟩ own₁ - howned
  refine Traced.Grows.mono (grows_request (R := fun _ _ => True) (fun _ _ _ _ _ => trivial)
    (fun _ => configurationGateway_ok) (howned _ rfl) ?_) (fun _ _ _ _ => trivial)
  intro gateway context run own₂ _ hgateway happlication _ hallowed
  refine grows_done (Q := fun _ _ => True) ?_
  refine Traced.Grows.bind (grows_getVariable owned name) ?_ (fun _ _ _ _ => trivial)
  rintro item own₃ hs₃ ⟨-, hread⟩
  cases item with
  | none => exact Traced.Grows.settled trivial
  | some item =>
    obtain ⟨hscope, hname⟩ := hread item rfl
    refine grows_recorded ?_ hcall (quiet_record _ _ _ _ _ _ _)
    obtain ⟨_, -, htenant, -⟩ := howned _ rfl
    rw [← hname] at hallowed
    exact warranted_of (hauthority.trans hgateway) htenant happlication (hallowed.mono hs₃)
      (.delete hscope)

theorem grows_deleteSecret (service : ConfigurationService) (scope : ScopeInput) (name : String)
    (caller : PrincipalInput) (hauthority : call.authority = service.authority)
    (hcall : call.storeInput = none) :
    GrowsConfiguration call (service.deleteSecret scope name caller) own (fun _ _ => True) := by
  unfold ConfigurationService.deleteSecret
  refine Traced.Grows.bind (grows_own service _ caller) ?_ (fun _ _ _ _ => trivial)
  rintro ⟨principal, owned⟩ own₁ - howned
  refine Traced.Grows.mono (grows_request (R := fun _ _ => True) (fun _ _ _ _ _ => trivial)
    (fun _ => configurationGateway_ok) (howned _ rfl) ?_) (fun _ _ _ _ => trivial)
  intro gateway context run own₂ _ hgateway happlication _ hallowed
  refine grows_done (Q := fun _ _ => True) ?_
  refine Traced.Grows.bind (grows_getSecret owned name) ?_ (fun _ _ _ _ => trivial)
  rintro item own₃ hs₃ ⟨-, hread⟩
  cases item with
  | none => exact Traced.Grows.settled trivial
  | some item =>
    obtain ⟨hscope, hname⟩ := hread item rfl
    refine grows_recorded ?_ hcall (quiet_record _ _ _ _ _ _ _)
    obtain ⟨_, -, htenant, -⟩ := howned _ rfl
    rw [← hname] at hallowed
    exact warranted_of (hauthority.trans hgateway) htenant happlication (hallowed.mono hs₃)
      (.detach hscope)

/-- The capability a write of a binding needs: to attach it, or to point it elsewhere. -/
def bindsUnder (current : Option (ConfigurationSecret τ)) : String :=
  if current.isSome then "credential.rotate" else "credential.attach"

/-- **A binding is written** as its change was allowed, in the scope and under the name it
was read for, and at the reference. -/
theorem grows_bind {gateway : ServiceGateway} {principal : VerifiedPrincipal}
    {owned : ConfigurationScope} {name ref : String} {decisionId : String}
    (required : Option Bool) (actor : String) {current : Option (ConfigurationSecret τ)}
    (hauthority : call.authority = some gateway) (htenant : owned.tenantId = principal.tenantId)
    (happlication : owned.applicationId = gateway.application)
    (hallowed : Authorized own gateway (bindsUnder current) (.of principal)
      (configurationResource owned (some name) "credential" (some ref)) decisionId)
    (hcurrent : ∀ item, current = some item → item.toConfigurationScope = owned ∧ item.name = name)
    (hstored : ∀ input, call.storeInput = some input → ∃ stored,
      requireCredentialRef input.ref "ref" = .ok ref ∧ ConfirmedBy own input ref stored) :
    GrowsConfiguration call (ConfigurationService.bind owned name ref required actor current) own
      (fun r own' => ∀ view, r = .ok view → ∃ item expected, view = secretView item ∧
        item.toConfigurationScope = owned ∧ item.name = name ∧ item.credentialRef = ref ∧
        Answered own' (.configuration (.saveSecret item expected)) (.ok ())) := by
  unfold ConfigurationService.bind
  refine Traced.Grows.bind (grows_quiet (uses_now.mono authority_unmediated)) ?_
    (fun _ _ _ _ _ h => by cases h)
  intro timestamp own₁ hs₁ _
  have hsave : ∀ {own₂ : List (configurationPlatform τ).Step} {item : ConfigurationSecret τ}
      {expected : Option Nat} {k : Svc τ Unit}, own <:+ own₂ →
      item.toConfigurationScope = owned → item.name = name → item.credentialRef = ref →
      ChangesUnder owned (.saveSecret item expected) (bindsUnder current)
        (configurationResource owned (some name) "credential" (some ref)) →
      Task.Uses (S := services τ) (unmediatedCalls call) k →
      GrowsConfiguration call ((ConfigurationOp.saveSecret item expected).perform.bind fun _ =>
          k.bind fun _ => pure (secretView item)) own₂
        (fun r own' => ∀ view, r = .ok view → ∃ item expected, view = secretView item ∧
          item.toConfigurationScope = owned ∧ item.name = name ∧ item.credentialRef = ref ∧
          Answered own' (.configuration (.saveSecret item expected)) (.ok ())) := by
    intro own₂ item expected k hs₂ hscope hname href hunder hk
    have hwarranted := warranted_of hauthority htenant happlication (hallowed.mono hs₂) hunder
    refine Traced.Grows.bind (grows_write hwarranted ?_) ?_ (fun _ _ _ _ _ h => by cases h)
    · intro input hinput
      obtain ⟨stored, href', hconfirmed⟩ := hstored input hinput
      subst href
      exact ⟨item, expected, stored, rfl, href', hconfirmed.mono hs₂⟩
    · intro _ own₃ _ hanswered
      refine Traced.Grows.bind (grows_quiet hk) ?_ (fun _ _ _ _ _ h => by cases h)
      intro _ own₄ hs₄ _
      refine Traced.Grows.settled fun view hview => ?_
      rw [← Except.ok.inj hview]
      exact ⟨item, expected, rfl, hscope, hname, href, hanswered.mono hs₄⟩
  cases current with
  | none =>
    refine Traced.Grows.bind (grows_quiet (uses_randomUUID.mono authority_unmediated)) ?_
      (fun _ _ _ _ _ h => by cases h)
    intro id own₂ hs₂ _
    exact hsave (hs₁.trans hs₂) rfl rfl rfl (.attach rfl) (quiet_record _ _ _ _ _ _ _)
  | some current =>
    obtain ⟨hscope, hname⟩ := hcurrent current rfl
    refine hsave hs₁ hscope hname rfl ?_ (quiet_record _ _ _ _ _ _ _)
    rw [← hname]
    exact .rotate _ hscope

theorem grows_createSecret (service : ConfigurationService) (input : CredentialInput)
    (caller : PrincipalInput) (hauthority : call.authority = service.authority)
    (hcall : call.storeInput = none) :
    GrowsConfiguration call (service.createSecret input caller) own (fun _ _ => True) := by
  unfold ConfigurationService.createSecret
  refine Traced.Grows.ofExcept_bind ?_ (fun _ _ => trivial)
  intro _ _
  refine Traced.Grows.bind (grows_own service _ caller) ?_ (fun _ _ _ _ => trivial)
  rintro ⟨principal, owned⟩ own₁ - howned
  refine Traced.Grows.ofExcept_bind ?_ (fun _ _ => trivial)
  intro name _
  refine Traced.Grows.ofExcept_bind ?_ (fun _ _ => trivial)
  intro credentialRef _
  refine Traced.Grows.mono (grows_request (R := fun _ _ => True) (fun _ _ _ _ _ => trivial)
    (fun _ => configurationGateway_ok) (howned _ rfl) ?_) (fun _ _ _ _ => trivial)
  intro gateway context run own₂ _ hgateway happlication _ hallowed
  refine grows_done (Q := fun _ _ => True) ?_
  refine Traced.Grows.bind (grows_getSecret owned name) ?_ (fun _ _ _ _ => trivial)
  intro current own₃ hs₃ _
  refine Traced.Grows.bind (grows_getVariable owned name) ?_ (fun _ _ _ _ => trivial)
  intro stored own₄ hs₄ _
  split
  · exact Traced.Grows.settled trivial
  obtain ⟨_, -, htenant, -⟩ := howned _ rfl
  exact Traced.Grows.mono (grows_bind input.required principal.principalId
    (hauthority.trans hgateway) htenant happlication (hallowed.mono (hs₃.trans hs₄))
    (fun _ h => by cases h) (unstored hcall)) fun _ _ _ _ => trivial

theorem grows_rotateSecret (service : ConfigurationService) (input : CredentialInput)
    (caller : PrincipalInput) (hauthority : call.authority = service.authority)
    (hcall : call.storeInput = none) :
    GrowsConfiguration call (service.rotateSecret input caller) own (fun _ _ => True) := by
  unfold ConfigurationService.rotateSecret
  refine Traced.Grows.ofExcept_bind ?_ (fun _ _ => trivial)
  intro _ _
  refine Traced.Grows.bind (grows_own service _ caller) ?_ (fun _ _ _ _ => trivial)
  rintro ⟨principal, owned⟩ own₁ - howned
  refine Traced.Grows.ofExcept_bind ?_ (fun _ _ => trivial)
  intro name _
  refine Traced.Grows.ofExcept_bind ?_ (fun _ _ => trivial)
  intro credentialRef _
  refine Traced.Grows.mono (grows_request (R := fun _ _ => True) (fun _ _ _ _ _ => trivial)
    (fun _ => configurationGateway_ok) (howned _ rfl) ?_) (fun _ _ _ _ => trivial)
  intro gateway context run own₂ _ hgateway happlication _ hallowed
  refine grows_done (Q := fun _ _ => True) ?_
  refine Traced.Grows.bind (grows_getSecret owned name) ?_ (fun _ _ _ _ => trivial)
  rintro current own₃ hs₃ ⟨-, hread⟩
  cases current with
  | none => exact Traced.Grows.settled trivial
  | some current =>
    obtain ⟨_, -, htenant, -⟩ := howned _ rfl
    refine Traced.Grows.mono (grows_bind input.required principal.principalId
      (hauthority.trans hgateway) htenant happlication (hallowed.mono hs₃) ?_ (unstored hcall))
      fun _ _ _ _ => trivial
    intro item hitem
    exact hread item (congrArg Except.ok hitem)

/-! ### `credential.store` -/

/-- What is known of a plan for a binding. -/
def Planned (own : List (configurationPlatform τ).Step) (gateway : ServiceGateway)
    (principal : VerifiedPrincipal) (owned : ConfigurationScope) (name : Option String) (ref : String) :
    ConfigurationService.BindingPlan τ → Prop
  | .unnamed => name = none
  | .kept current => ∃ bound item, name = some bound ∧ current = some item ∧
      item.toConfigurationScope = owned ∧ item.name = bound ∧ item.credentialRef = ref ∧
      Answered own (.configuration (.getSecret owned bound)) (.ok (some item))
  | .change bound current context => name = some bound ∧
      (∀ item, current = some item → item.toConfigurationScope = owned ∧ item.name = bound) ∧
      Authorized own gateway (bindsUnder current) (.of principal)
        (configurationResource owned (some bound) "credential" (some ref))
        context.authorization.decisionId

theorem Planned.mono {own own' : List (configurationPlatform τ).Step} {gateway : ServiceGateway}
    {principal : VerifiedPrincipal} {owned : ConfigurationScope} {name : Option String}
    {ref : String} {plan : ConfigurationService.BindingPlan τ}
    (h : Planned own gateway principal owned name ref plan) (hs : own <:+ own') :
    Planned own' gateway principal owned name ref plan := by
  cases plan with
  | unnamed => exact h
  | kept current =>
    obtain ⟨bound, item, hname, hcurrent, hscope, hbound, href, hanswered⟩ := h
    exact ⟨bound, item, hname, hcurrent, hscope, hbound, href, hanswered.mono hs⟩
  | change bound current context =>
    obtain ⟨hname, hcurrent, hallowed⟩ := h
    exact ⟨hname, hcurrent, hallowed.mono hs⟩

omit [Timestamp τ] in
/-- A binding that stands elsewhere, or nowhere, needs its change allowed. -/
theorem bindingCapability_eq {ref capability : String} {current : Option (ConfigurationSecret τ)}
    (h : ConfigurationService.bindingCapability ref current = some capability) :
    capability = bindsUnder current := by
  unfold ConfigurationService.bindingCapability at h
  cases current with
  | none =>
    obtain rfl := Option.some.inj h
    rfl
  | some current =>
    simp only [Option.ite_none_right_eq_some, Option.some.injEq] at h
    exact h.2.symm

omit [Timestamp τ] in
theorem bindingCapability_none {ref : String} {current : Option (ConfigurationSecret τ)}
    (h : ConfigurationService.bindingCapability ref current = none) :
    ∃ item, current = some item ∧ item.credentialRef = ref := by
  unfold ConfigurationService.bindingCapability at h
  cases current with
  | none => cases h
  | some item =>
    by_cases href : item.credentialRef = ref
    · exact ⟨item, rfl, href⟩
    · simp [href] at h

/-- **The binding is planned before the value is handed over.** -/
theorem grows_planBinding (gateway : ServiceGateway) (principal : VerifiedPrincipal)
    (owned : ConfigurationScope) (name : Option String) (ref : String) :
    GrowsConfiguration call (ConfigurationService.planBinding gateway principal owned name ref) own
      (fun r own' => ∀ plan, r = .ok plan → Planned own' gateway principal owned name ref plan ∧
        ∀ bound, name = some bound → BindingAllowed own' gateway principal owned bound ref) := by
  unfold ConfigurationService.planBinding
  cases name with
  | none =>
    refine Traced.Grows.settled fun plan hplan => ?_
    obtain rfl := Except.ok.inj hplan
    exact ⟨rfl, fun _ h => by cases h⟩
  | some name =>
    refine Traced.Grows.bind (grows_getVariable owned name) ?_ (fun _ _ _ _ _ h => by cases h)
    rintro stored own₁ - ⟨hvariable, -⟩
    cases stored with
    | some stored => exact Traced.Grows.settled fun _ h => by cases h
    | none =>
      rw [if_neg (by simp)]
      refine Traced.Grows.bind (grows_getSecret owned name) ?_ (fun _ _ _ _ _ h => by cases h)
      rintro current own₂ hs₂ ⟨hbinding, hread⟩
      cases hcapability : ConfigurationService.bindingCapability ref current with
      | none =>
        obtain ⟨item, rfl, href⟩ := bindingCapability_none hcapability
        obtain ⟨hscope, hname⟩ := hread item rfl
        refine Traced.Grows.settled fun plan hplan => ?_
        obtain rfl := Except.ok.inj hplan
        refine ⟨⟨name, item, rfl, rfl, hscope, hname, href, hbinding⟩, ?_⟩
        rintro _ ⟨⟩
        refine ⟨hvariable.mono hs₂, _, hbinding, fun capability h => ?_⟩
        rw [hcapability] at h
        cases h
      | some capability =>
        refine Traced.Grows.bind (grows_quiet (uses_randomUUID.mono authority_unmediated)) ?_
          (fun _ _ _ _ _ h => by cases h)
        intro requestId own₃ hs₃ _
        refine Traced.Grows.bind (grows_authorize configurationAllowed_authority gateway capability
          (.of principal) _ requestId) ?_ (fun _ _ _ _ _ h => by cases h)
        intro context own₄ hs₄ hdecided
        obtain ⟨hallowed, -⟩ := hdecided context rfl
        refine Traced.Grows.settled fun plan hplan => ?_
        obtain rfl := Except.ok.inj hplan
        constructor
        · rw [bindingCapability_eq hcapability] at hallowed
          exact ⟨rfl, fun item hitem => hread item (congrArg Except.ok hitem), hallowed⟩
        · rintro _ ⟨⟩
          refine ⟨hvariable.mono (hs₂.trans (hs₃.trans hs₄)), current,
            hbinding.mono (hs₃.trans hs₄), fun capability' h => ?_⟩
          rw [hcapability] at h
          obtain rfl := Option.some.inj h
          exact ⟨_, hallowed⟩

/-- The value is handed to custody for what was allowed, and what custody confirms is
returned. -/
theorem grows_custodyStore {gateway : ServiceGateway} {tools : EffectTools τ} {ref value : String}
    {options : CredentialCustodyOptions} {input : CredentialStoreInput}
    (hinput : call.storeInput = some input) (hvalue : validateCredentialValue input.value = .ok value)
    (hallowed : ∀ own', own <:+ own' → ∀ request : SecretRequest, request.credentialRef = ref →
      request.tenantId = tools.context.tenantId →
      request.authorizationRef = tools.context.authorization.decisionId →
      StoreAllowed own' call.authority input request value) :
    GrowsConfiguration call (gateway.storeCredential tools ref value options) own
      (fun r own' => ∀ stored, r = .ok stored → ConfirmedBy own' input ref stored) := by
  unfold ServiceGateway.storeCredential
  refine Traced.Grows.bind (grows_quiet ((AuthorityOp.uses _).mono authority_unmediated)) ?_
    (fun _ _ _ _ _ h => by cases h)
  intro _ own₁ hs₁ _
  refine Traced.Grows.bind (Q := fun r _ => ∀ context, r = .ok context → context = tools.context)
    ?_ ?_ (fun _ _ _ _ _ h => by cases h)
  · unfold ServiceGateway.custodyContext
    refine Traced.Grows.bind (grows_quiet (uses_now.mono authority_unmediated)) ?_
      (fun _ _ _ _ _ h => by cases h)
    intro at_ own₂ _ _
    refine Traced.Grows.bind (grows_quiet ((AuthorityOp.uses _).mono authority_unmediated)) ?_
      (fun _ _ _ _ _ h => by cases h)
    intro issued own₃ _ _
    refine Traced.Grows.ofExcept_bind ?_ (fun _ _ _ h => by cases h)
    intro context hcontext
    obtain ⟨rfl, -⟩ := assertExecutionContext_ok hcontext
    split
    · exact Traced.Grows.settled fun _ h => by cases h
    · exact Traced.Grows.settled fun _ h => (Except.ok.inj h).symm
  intro context own₂ hs₂ hcontext
  obtain rfl := hcontext context rfl
  split
  · exact Traced.Grows.settled fun _ h => by cases h
  have hstatus : ∀ request, (.host (.custodyStatus request) : AppOp τ) ∈ unmediatedCalls call := by
    intro request
    constructor
    · intro _ h
      cases h
    · intro _ _ _ h
      cases h
  refine Traced.Grows.bind (grows_quiet (Task.uses_perform (hstatus _))) ?_
    (fun _ _ _ _ _ h => by cases h)
  intro answer own₃ hs₃ _
  refine Traced.Grows.ofExcept_bind ?_ (fun _ _ _ h => by cases h)
  intro status _
  split
  · exact Traced.Grows.settled fun _ h => by cases h
  refine Traced.Grows.bind (Traced.Grows.perform ?_) ?_ (fun _ _ _ _ _ h => by cases h)
  · intro res before after
    constructor
    · intro _ h
      cases h
    · intro input' request value' hinput' hop
      obtain rfl : input = input' := Option.some.inj (hinput.symm.trans hinput')
      cases hop
      exact hallowed own₃ (hs₁.trans (hs₂.trans hs₃)) _ rfl rfl rfl
    · intro _ _ _ h
      cases h
  · intro answer own₄ hs₄ hanswered
    refine Traced.Grows.ofExcept_bind ?_ (fun _ _ _ h => by cases h)
    intro result hresult
    exact Traced.Grows.settled fun stored hstored =>
      ⟨_, value, answer, _, result, hanswered, rfl, hvalue, hresult, hstored⟩

omit [Timestamp τ] in
theorem secretMetadata_unmediated (op : SecretMetadataOp) :
    .secretMetadata op ∈ unmediatedCalls call := by
  constructor
  · intro _ h
    cases h
  · intro _ _ _ h
    cases h

omit [Timestamp τ] in
theorem unmediated_metadata (op : SecretMetadataOp) :
    Task.Uses (S := services τ) (unmediatedCalls call) op.perform :=
  Task.uses_perform (secretMetadata_unmediated op)

omit [Timestamp τ] in
theorem unmediated_recordFailure (input : SecretFailureRecord) :
    Task.Uses (S := services τ) (unmediatedCalls call)
      (FeltDbSecretMetadataStore.recordFailure (τ := τ) input) := by
  unfold FeltDbSecretMetadataStore.recordFailure
  refine Task.Uses.bind (unmediated_metadata _) fun existing => ?_
  exact Task.Uses.bind (uses_randomUUID.mono authority_unmediated) fun id => unmediated_metadata _

omit [Timestamp τ] in
theorem unmediated_recordStored (input : SecretStoredRecord) :
    Task.Uses (S := services τ) (unmediatedCalls call)
      (FeltDbSecretMetadataStore.recordStored (τ := τ) input) := by
  have huuid : Task.Uses (S := services τ) (unmediatedCalls call) randomUUID :=
    uses_randomUUID.mono authority_unmediated
  have hrest : ∀ (existing : Option Secret) (secret : Secret),
      Task.Uses (S := services τ) (unmediatedCalls call) (do
        let versionId ← randomUUID
        (SecretMetadataOp.insertVersion
          (FeltDbSecretMetadataStore.newVersion versionId secret.id input)).perform
        let eventId ← randomUUID
        (SecretMetadataOp.insertEvent
          (FeltDbSecretMetadataStore.storedEvent eventId secret.id existing.isNone input)).perform
        pure existing.isNone) := by
    intro existing secret
    refine Task.Uses.bind huuid fun versionId => Task.Uses.bind (unmediated_metadata _) fun _ => ?_
    exact Task.Uses.bind huuid fun eventId => Task.Uses.bind (unmediated_metadata _) fun _ => trivial
  unfold FeltDbSecretMetadataStore.recordStored
  refine Task.Uses.bind (unmediated_metadata _) fun existing => ?_
  cases existing with
  | some existing =>
    refine Task.Uses.bind ?_ fun secret => hrest _ secret
    refine Task.Uses.bind (unmediated_metadata _) fun _ => ?_
    refine Task.Uses.bind (unmediated_metadata _) fun active => ?_
    exact Task.Uses.bind (Task.Uses.forEach _ fun _ _ => unmediated_metadata _) fun _ => trivial
  | none =>
    refine Task.Uses.bind ?_ fun secret => hrest _ secret
    refine Task.Uses.bind huuid fun id => ?_
    exact Task.Uses.bind (unmediated_metadata _) fun _ => trivial

/-- What custody refuses is recorded, and stays refused. -/
theorem grows_storeValue {service : ConfigurationService} {gateway : ServiceGateway}
    {tools : EffectTools τ} {principal : VerifiedPrincipal} {owned : ConfigurationScope}
    {ref value : String} {provider kind : Option String} {input : CredentialStoreInput}
    (hinput : call.storeInput = some input) (hvalue : validateCredentialValue input.value = .ok value)
    (hallowed : ∀ own', own <:+ own' → ∀ request : SecretRequest, request.credentialRef = ref →
      request.tenantId = tools.context.tenantId →
      request.authorizationRef = tools.context.authorization.decisionId →
      StoreAllowed own' call.authority input request value) :
    GrowsConfiguration call
      (service.storeValue gateway tools principal owned ref value provider kind) own
      (fun r own' => ∀ stored, r = .ok stored → ConfirmedBy own' input ref stored) := by
  unfold ConfigurationService.storeValue
  refine Traced.Grows.tryCatch (grows_custodyStore hinput hvalue hallowed) (fun _ _ _ h => h) ?_
  intro error own₁ _ _
  split
  · refine Traced.Grows.bind (grows_quiet (uses_now.mono authority_unmediated)) ?_
      (fun _ _ _ _ _ h => by cases h)
    intro timestamp own₂ _ _
    exact Traced.Grows.bind (grows_quiet (unmediated_recordFailure _).ignore)
      (fun _ _ _ _ => Traced.Grows.settled fun _ h => by cases h) (fun _ _ _ _ _ h => by cases h)
  · exact Traced.Grows.settled fun _ h => by cases h

/-- The binding is as it was planned. -/
theorem grows_performPlan {gateway : ServiceGateway} {principal : VerifiedPrincipal}
    {owned : ConfigurationScope} {name : Option String} {ref : String} {input : CredentialStoreInput}
    {stored : SecretCustodyWriteResult} (required : Option Bool)
    {plan : ConfigurationService.BindingPlan τ}
    (hinput : call.storeInput = some input) (hauthority : call.authority = some gateway)
    (htenant : owned.tenantId = principal.tenantId)
    (happlication : owned.applicationId = gateway.application)
    (hplan : Planned own gateway principal owned name ref plan)
    (href : requireCredentialRef input.ref "ref" = .ok ref) (hconfirmed : ConfirmedBy own input ref stored) :
    GrowsConfiguration call (ConfigurationService.performPlan principal owned ref required plan) own
      (fun r own' => ∀ binding, r = .ok binding → BoundAs own' name ref binding) := by
  cases plan with
  | unnamed =>
    obtain rfl : name = none := hplan
    exact Traced.Grows.settled fun binding h => (Except.ok.inj h).symm
  | kept current =>
    obtain ⟨bound, item, rfl, rfl, rfl, hbound, hitem, hanswered⟩ := hplan
    refine Traced.Grows.settled fun binding h => ?_
    obtain rfl := Except.ok.inj h
    exact ⟨item, rfl, hbound, hitem, .inl hanswered⟩
  | change bound current context =>
    obtain ⟨rfl, hcurrent, hallowed⟩ := hplan
    unfold ConfigurationService.performPlan
    refine Traced.Grows.bind (grows_quiet (uses_now.mono authority_unmediated)) ?_
      (fun _ _ _ _ _ h => by cases h)
    intro startedAt own₁ hs₁ _
    refine Traced.Grows.bind (grows_run configurationAllowed_authority
      (R := fun view own' => ∃ item expected, view = secretView item ∧
        item.toConfigurationScope = owned ∧ item.name = bound ∧ item.credentialRef = ref ∧
        Answered own' (.configuration (.saveSecret item expected)) (.ok ())) ?_ ?_) ?_
      (fun _ _ _ _ _ h => by cases h)
    · rintro view own₂ own₃ hs₃ ⟨item, expected, hview, hscope, hname, hitem, hanswered⟩
      exact ⟨item, expected, hview, hscope, hname, hitem, hanswered.mono hs₃⟩
    · intro run at_ own₂ hs₂ _ _ _
      have hafter := hs₁.trans hs₂
      exact grows_bind required principal.principalId hauthority htenant happlication
        (hallowed.mono hafter) hcurrent fun input' hinput' => by
          obtain rfl : input = input' := Option.some.inj (hinput.symm.trans hinput')
          exact ⟨stored, href, hconfirmed.mono hafter⟩
    · intro view own₂ _ hbound
      obtain ⟨item, expected, rfl, -, hname, hitem, hanswered⟩ := hbound view rfl
      refine Traced.Grows.settled fun binding h => ?_
      obtain rfl := Except.ok.inj h
      exact ⟨item, rfl, hname, hitem, .inr ⟨expected, hanswered⟩⟩

theorem BoundAs.mono {own own' : List (configurationPlatform τ).Step} {name : Option String}
    {ref : String} {binding : Option (ConfigurationSecretView τ)} (h : BoundAs own name ref binding)
    (hs : own <:+ own') : BoundAs own' name ref binding := by
  cases name with
  | none => exact h
  | some name =>
    obtain ⟨item, hview, hitem, hcredential, hanswered⟩ := h
    refine ⟨item, hview, hitem, hcredential, ?_⟩
    rcases hanswered with hread | ⟨expected, hwritten⟩
    · exact .inl (hread.mono hs)
    · exact .inr ⟨expected, hwritten.mono hs⟩

theorem StoredAs.mono {own own' : List (configurationPlatform τ).Step} {input : CredentialStoreInput}
    {result : CredentialStoreResult τ} (h : StoredAs own input result) (hs : own <:+ own') :
    StoredAs own' input result := by
  obtain ⟨href, hconfirmed, name, hname, hbinding⟩ := h
  exact ⟨href, hconfirmed.mono hs, name, hname, hbinding.mono hs⟩

/-- **`credential.store`, in order**: the plan, the value, its metadata, the binding. -/
theorem grows_storeCredentialUnredacted (service : ConfigurationService)
    (input : CredentialStoreInput) (caller : PrincipalInput)
    (hauthority : call.authority = service.authority) (hinput : call.storeInput = some input) :
    GrowsConfiguration call (service.storeCredentialUnredacted input caller) own
      (fun r own' => ∀ result, r = .ok result → StoredAs own' input result) := by
  have hfailed : ∀ {e : JsError} {own' : List (configurationPlatform τ).Step},
      ∀ result, (.error e : Except JsError (CredentialStoreResult τ)) = .ok result →
        StoredAs own' input result := fun _ h => by cases h
  unfold ConfigurationService.storeCredentialUnredacted
  refine Traced.Grows.ofExcept_bind ?_ (fun _ _ => hfailed)
  intro ref href
  refine Traced.Grows.ofExcept_bind ?_ (fun _ _ => hfailed)
  intro value hvalue
  refine Traced.Grows.ofExcept_bind ?_ (fun _ _ => hfailed)
  intro provider _
  refine Traced.Grows.ofExcept_bind ?_ (fun _ _ => hfailed)
  intro kind _
  refine Traced.Grows.ofExcept_bind ?_ (fun _ _ => hfailed)
  intro name hname
  refine Traced.Grows.bind (grows_own service _ caller) ?_ (fun _ _ _ _ => hfailed)
  rintro ⟨principal, owned⟩ own₁ - howned
  refine grows_request (fun _ _ _ hs h => h.mono hs) (fun _ => configurationGateway_ok)
    (howned _ rfl) ?_
  intro gateway context run own₂ _ hgateway happlication hissued hallowed
  obtain ⟨_, -, htenant, -⟩ := howned _ rfl
  have hauthority' := hauthority.trans hgateway
  unfold ConfigurationService.storeEffect
  refine Traced.Grows.bind (grows_planBinding gateway principal owned name ref) ?_
    (fun _ _ _ _ => hfailed)
  intro plan own₃ hs₃ hplanned
  obtain ⟨hplan, hbinding⟩ := hplanned plan rfl
  refine Traced.Grows.bind (grows_storeValue hinput hvalue ?_) ?_ (fun _ _ _ _ => hfailed)
  · intro own' hs' request hrequest hrequestTenant hdecision
    refine ⟨hrequest ▸ href, hvalue, gateway, principal, owned, name, hauthority', htenant,
      happlication, hrequestTenant.trans hissued.tenantId, hname, ?_, fun bound hbound => ?_⟩
    · rw [hrequest, hdecision]
      exact hallowed.mono (hs₃.trans hs')
    · rw [hrequest]
      exact (hbinding bound hbound).mono hs'
  intro stored own₄ hs₄ hconfirmed
  have hconfirmed := hconfirmed stored rfl
  refine Traced.Grows.bind (Q := fun _ _ => True) ?_ ?_ (fun _ _ _ _ => hfailed)
  · unfold ConfigurationService.recordStored
    split
    · exact grows_quiet ((unmediated_recordStored _).bind fun _ => trivial)
    · exact Traced.Grows.settled trivial
  intro _ own₅ hs₅ _
  refine Traced.Grows.bind (grows_performPlan input.required hinput hauthority' htenant happlication
    (hplan.mono (hs₄.trans hs₅)) href (hconfirmed.mono hs₅)) ?_ (fun _ _ _ _ => hfailed)
  intro binding own₆ hs₆ hbound
  refine Traced.Grows.settled fun result hresult => ?_
  obtain rfl := Except.ok.inj hresult
  exact ⟨href, hconfirmed.mono (hs₅.trans hs₆), name, hname, hbound binding rfl⟩

theorem grows_storeCredential (service : ConfigurationService) (input : Option CredentialStoreInput)
    (caller : PrincipalInput) (hauthority : call.authority = service.authority)
    (hcall : call.storeInput = input) :
    GrowsConfiguration call (service.storeCredential input caller) own
      (fun r own' => ∀ result input', input = some input' → r = .ok result →
        StoredAs own' input' result) := by
  unfold ConfigurationService.storeCredential
  cases input with
  | none => exact Traced.Grows.settled fun _ _ h => by cases h
  | some input =>
    refine Traced.Grows.tryCatch (grows_storeCredentialUnredacted service input caller hauthority hcall)
      ?_ ?_
    · intro result own' _ hstored result' input' hinput hresult
      obtain rfl := Option.some.inj hinput
      exact hstored result' hresult
    · intro error own' _ _
      exact Traced.Grows.settled fun _ _ _ h => by cases h

omit [Timestamp τ] in
theorem unmediated_lists : (listCalls : Set (AppOp τ)) ⊆ unmediatedCalls call := by
  intro op hop
  constructor
  · intro o heq
    subst heq
    cases o <;> first | rfl | cases hop
  · intro _ request value heq
    subst heq
    cases hop

theorem grows_list (service : ConfigurationService) (scope : ScopeInput) (caller : PrincipalInput) :
    GrowsConfiguration call (service.list scope caller) own (fun _ _ => True) :=
  grows_quiet ((uses_configurationList service scope caller).mono unmediated_lists)

/-! ### The import -/

omit [Timestamp τ] in
theorem unmediated_ambient : Ambient (unmediatedCalls call) where
  authority := authority_unmediated
  audit event := by
    constructor
    · intro _ h
      cases h
    · intro _ _ _ h
      cases h
  schedules op _ := by
    constructor
    · intro _ h
      cases h
    · intro _ _ _ h
      cases h

omit [Timestamp τ] in
theorem unmediated_webhook (hcall : call.storeInput = none) : WebhookCalls (unmediatedCalls call) where
  quiet op _ _ hconfigures := by
    refine ⟨fun o heq => ?_, fun hstoring => absurd hcall hstoring⟩
    subst heq
    cases hconfigures

/-- An item is applied as its write goes. -/
theorem grows_apply (deps : ConfigurationTransferDependencies τ) (dryRun : Bool)
    (planned : PlannedItem) {write : Svc τ Unit}
    (hwrite : ∀ own', GrowsConfiguration call write own' (fun _ _ => True)) :
    GrowsConfiguration call (deps.apply dryRun planned write) own (fun _ _ => True) := by
  unfold ConfigurationTransferDependencies.apply
  split
  · exact Traced.Grows.settled trivial
  · refine (hwrite own).settleWith fun r own' _ _ => ?_
    cases r <;> exact Traced.Grows.settled trivial

theorem grows_nothing (deps : ConfigurationTransferDependencies τ) (dryRun : Bool)
    (planned : PlannedItem) :
    GrowsConfiguration call (deps.apply dryRun planned (pure ())) own (fun _ _ => True) :=
  grows_apply deps dryRun planned fun _ => Traced.Grows.settled trivial

/-- Entry after entry. -/
theorem grows_each {α β : Type} {one : α → Svc τ β}
    (hone : ∀ a own', GrowsConfiguration call (one a) own' (fun _ _ => True)) :
    (entries : List α) → (own : List (configurationPlatform τ).Step) →
    GrowsConfiguration call (importEach one entries) own (fun _ _ => True)
  | [], _ => Traced.Grows.settled trivial
  | entry :: rest, own => by
    refine Traced.Grows.bind (hone entry own) ?_ (fun _ _ _ _ => trivial)
    intro item own₁ _ _
    refine Traced.Grows.bind (grows_each hone rest own₁) ?_ (fun _ _ _ _ => trivial)
    intro items own₂ _ _
    exact Traced.Grows.settled trivial

section transfer

variable (deps : ConfigurationTransferDependencies τ) (target : ImportTarget τ)
  (dryRun overwrite : Bool) (principal : VerifiedPrincipal)

theorem grows_importVariable (hauthority : call.authority = deps.configuration.authority)
    (hcall : call.storeInput = none) (entry : ConfigurationExportVariable) :
    GrowsConfiguration call (deps.importVariable target dryRun overwrite principal entry) own
      (fun _ _ => True) := by
  unfold importVariable
  simp only
  split
  · exact grows_nothing deps dryRun _
  cases target.variableView? entry.name with
  | none =>
    refine grows_apply deps dryRun _ fun own' => ?_
    exact Traced.Grows.bind (grows_createVariable deps.configuration _ _ hauthority hcall)
      (fun _ _ _ _ => Traced.Grows.settled trivial) (fun _ _ _ _ => trivial)
  | some existing =>
    simp only
    split
    · exact grows_nothing deps dryRun _
    split
    · exact grows_nothing deps dryRun _
    refine grows_apply deps dryRun _ fun own' => ?_
    exact Traced.Grows.bind (grows_updateVariable deps.configuration _ _ hauthority hcall)
      (fun _ _ _ _ => Traced.Grows.settled trivial) (fun _ _ _ _ => trivial)

theorem grows_importSecret (entry : ConfigurationExportSecret) :
    GrowsConfiguration call (deps.importSecret target dryRun entry) own (fun _ _ => True) := by
  have hdone : ∀ (planned : PlannedItem) (missing : Option ConfigurationMissingSecret),
      GrowsConfiguration call ((deps.apply dryRun planned (pure ())).bind fun item =>
        pure (item, missing)) own (fun _ _ => True) := fun planned missing =>
    Traced.Grows.bind (grows_nothing deps dryRun planned)
      (fun _ _ _ _ => Traced.Grows.settled trivial) (fun _ _ _ _ => trivial)
  unfold importSecret
  split
  · exact hdone _ _
  split
  · exact hdone _ _
  · exact hdone _ _

theorem grows_importEndpoint (hcall : call.storeInput = none) (hooks : WebhookService)
    (entry : ConfigurationExportWebhookEndpoint) :
    GrowsConfiguration call (deps.importEndpoint hooks target dryRun overwrite principal entry) own
      (fun _ _ => True) := by
  have hcreate : ∀ ref, Task.Uses (S := services τ) (unmediatedCalls call)
      (createExportedEndpoint hooks principal entry ref) := fun ref =>
    (hooks.uses_createWebhookEndpoint (unmediated_webhook hcall) _ _).bind fun _ => trivial
  unfold importEndpoint
  simp only
  split
  · exact grows_nothing deps dryRun _
  split
  · exact grows_nothing deps dryRun _
  · exact grows_apply deps dryRun _ fun own' => grows_quiet (hcreate _)
  · split
    · exact grows_nothing deps dryRun _
    refine grows_apply deps dryRun _ fun own' => grows_quiet ?_
    refine (hcreate _).bind fun _ => ?_
    exact (hooks.uses_disableWebhookEndpoint (unmediated_webhook hcall) _ _).bind fun _ => trivial

theorem grows_importSchedule (scheduler : ScheduleService τ) (entry : ConfigurationExportSchedule) :
    GrowsConfiguration call
      (deps.importSchedule scheduler target dryRun overwrite principal entry) own
      (fun _ _ => True) := by
  have hschedules : ∀ op : ScheduleOp τ, (.schedules op : AppOp τ) ∈ unmediatedCalls call := by
    intro op
    constructor
    · intro _ h
      cases h
    · intro _ _ _ h
      cases h
  have hcreate : Task.Uses (S := services τ) (unmediatedCalls call)
      (scheduler.createExported entry (.of principal)) :=
    (scheduler.uses_create unmediated_ambient _ _ fun _ _ _ _ _ _ _ _ _ _ => hschedules _).bind
      fun _ => trivial
  unfold ConfigurationTransferDependencies.importSchedule
  simp only
  split
  · exact grows_nothing deps dryRun _
  split
  · exact grows_apply deps dryRun _ fun own' => grows_quiet hcreate
  split
  · exact grows_nothing deps dryRun _
  · refine grows_apply deps dryRun _ fun own' => grows_quiet ?_
    refine hcreate.bind fun _ => Task.Uses.forEach _ fun replaced _ => ?_
    exact (scheduler.jobs.uses_disableSchedule unmediated_ambient ..).bind fun _ => trivial

theorem grows_importDocument (hauthority : call.authority = deps.configuration.authority)
    (hcall : call.storeInput = none) (document : ConfigurationExportDocument) :
    GrowsConfiguration call (deps.importDocument target dryRun overwrite principal document) own
      (fun _ _ => True) := by
  unfold importDocument
  refine Traced.Grows.bind (grows_each (fun entry _ => grows_importVariable deps target dryRun
    overwrite principal hauthority hcall entry) _ own) ?_ (fun _ _ _ _ => trivial)
  intro _ own₁ _ _
  refine Traced.Grows.bind (grows_each (fun entry _ => grows_importSecret deps target dryRun entry)
    _ own₁) ?_ (fun _ _ _ _ => trivial)
  intro _ own₂ _ _
  refine Traced.Grows.bind (Q := fun _ _ => True) ?_ ?_ (fun _ _ _ _ => trivial)
  · unfold importEndpoints
    split
    · exact Traced.Grows.settled trivial
    · exact grows_each (fun entry _ => grows_importEndpoint deps target dryRun overwrite principal
        hcall _ entry) _ own₂
  intro _ own₃ _ _
  refine Traced.Grows.bind (Q := fun _ _ => True) ?_ ?_ (fun _ _ _ _ => trivial)
  · unfold ConfigurationTransferDependencies.importSchedules
    split
    · exact Traced.Grows.settled trivial
    · exact grows_each (fun entry _ => grows_importSchedule deps target dryRun overwrite principal
        _ entry) _ own₃
  intro _ own₄ _ _
  exact Traced.Grows.settled trivial

end transfer

theorem grows_importConfiguration (deps : ConfigurationTransferDependencies τ) (document : JsValue)
    (options : ConfigurationImportOptions)
    (hauthority : call.authority = deps.configuration.authority) (hcall : call.storeInput = none) :
    GrowsConfiguration call (deps.importConfiguration document options) own (fun _ _ => True) := by
  rw [importConfiguration_eq]
  refine Traced.Grows.bind (grows_quiet ((deps.uses_readImport _ _ _).mono unmediated_lists)) ?_
    (fun _ _ _ _ => trivial)
  intro read own₁ _ _
  exact grows_importDocument deps read.2.2 options.dryRun options.overwrite read.1 hauthority hcall _

/-! ### The intelligence service -/

section intelligence

variable {owned : ConfigurationScope} {principal : VerifiedPrincipal}

/-- The two rows are read under their names. -/
theorem grows_load (owned : ConfigurationScope) :
    GrowsConfiguration call (IntelligenceService.load owned) own (fun r _ => ∀ current, r = .ok current →
      (∀ item, current.stored = some item →
        item.toConfigurationScope = owned ∧ item.name = INTELLIGENCE_SELECTION_NAME) ∧
      ∀ item, current.binding = some item →
        item.toConfigurationScope = owned ∧ item.name = INTELLIGENCE_CREDENTIAL_NAME) := by
  unfold IntelligenceService.load
  refine Traced.Grows.bind (grows_getVariable owned _) ?_ (fun _ _ _ _ _ h => by cases h)
  rintro stored own₁ - ⟨-, hstored⟩
  refine Traced.Grows.bind (grows_getSecret owned _) ?_ (fun _ _ _ _ _ h => by cases h)
  rintro binding own₂ - ⟨-, hbinding⟩
  have hread : ∀ selection : Option IntelligenceSelection,
      (∀ item, (⟨stored, binding, selection⟩ : IntelligenceStored τ).stored = some item →
        item.toConfigurationScope = owned ∧ item.name = INTELLIGENCE_SELECTION_NAME) ∧
      ∀ item, (⟨stored, binding, selection⟩ : IntelligenceStored τ).binding = some item →
        item.toConfigurationScope = owned ∧ item.name = INTELLIGENCE_CREDENTIAL_NAME :=
    fun _ => ⟨fun item h => hstored item (congrArg Except.ok h),
      fun item h => hbinding item (congrArg Except.ok h)⟩
  cases stored with
  | none =>
    refine Traced.Grows.settled fun current h => ?_
    obtain rfl := Except.ok.inj h
    exact hread none
  | some item =>
    refine Traced.Grows.ofExcept_bind ?_ (fun _ _ _ h => by cases h)
    intro selection _
    refine Traced.Grows.settled fun current h => ?_
    obtain rfl := Except.ok.inj h
    exact hread (some selection)

theorem grows_save (hcall : call.storeInput = none) {current : Option (ConfigurationVariable τ)}
    (selection : IntelligenceSelection)
    (hcurrent : ∀ item, current = some item →
      item.toConfigurationScope = owned ∧ item.name = INTELLIGENCE_SELECTION_NAME)
    (hwarranted : ∀ item expected, item.toConfigurationScope = owned →
      item.name = INTELLIGENCE_SELECTION_NAME →
      Warranted own call.authority (.saveVariable item expected)) :
    GrowsConfiguration call (IntelligenceService.save owned current selection principal) own
      (fun _ _ => True) := by
  unfold IntelligenceService.save
  refine Traced.Grows.bind (grows_quiet (uses_now.mono authority_unmediated)) ?_
    (fun _ _ _ _ => trivial)
  intro timestamp own₁ hs₁ _
  cases current with
  | some current =>
    obtain ⟨hscope, hname⟩ := hcurrent current rfl
    refine grows_recorded (Warranted.mono ?_ hs₁) hcall (quiet_record _ _ _ _ _ _ _)
    exact hwarranted _ _ hscope hname
  | none =>
    refine Traced.Grows.bind (grows_quiet (uses_randomUUID.mono authority_unmediated)) ?_
      (fun _ _ _ _ => trivial)
    intro id own₂ hs₂ _
    exact grows_recorded ((hwarranted _ _ rfl rfl).mono (hs₁.trans hs₂)) hcall
      (quiet_record _ _ _ _ _ _ _)

theorem grows_bindCredential (hcall : call.storeInput = none)
    {current : Option (ConfigurationSecret τ)} {ref : String}
    (hcurrent : ∀ item, current = some item →
      item.toConfigurationScope = owned ∧ item.name = INTELLIGENCE_CREDENTIAL_NAME)
    (hwarranted : ∀ item expected, item.toConfigurationScope = owned →
      item.name = INTELLIGENCE_CREDENTIAL_NAME → item.credentialRef = ref →
      Warranted own call.authority (.saveSecret item expected)) :
    GrowsConfiguration call (IntelligenceService.bind owned current ref principal) own
      (fun _ _ => True) := by
  unfold IntelligenceService.bind
  refine Traced.Grows.bind (grows_quiet (uses_now.mono authority_unmediated)) ?_
    (fun _ _ _ _ => trivial)
  intro timestamp own₁ hs₁ _
  cases current with
  | some current =>
    obtain ⟨hscope, hname⟩ := hcurrent current rfl
    refine grows_recorded (Warranted.mono ?_ hs₁) hcall (quiet_record _ _ _ _ _ _ _)
    exact hwarranted _ _ hscope hname rfl
  | none =>
    refine Traced.Grows.bind (grows_quiet (uses_randomUUID.mono authority_unmediated)) ?_
      (fun _ _ _ _ => trivial)
    intro id own₂ hs₂ _
    exact grows_recorded ((hwarranted _ _ rfl rfl rfl).mono (hs₁.trans hs₂)) hcall
      (quiet_record _ _ _ _ _ _ _)

theorem grows_detach (hcall : call.storeInput = none) {current : ConfigurationSecret τ}
    (hwarranted : Warranted own call.authority (.deleteSecret current)) :
    GrowsConfiguration call (IntelligenceService.detach current principal) own (fun _ _ => True) :=
  grows_recorded hwarranted hcall (quiet_record _ _ _ _ _ _ _)

theorem grows_setEffect (hcall : call.storeInput = none) {selection : IntelligenceSelection}
    {credentialRef : Option String}
    (hwarranted : ∀ op, ChangesUnder owned op "intelligence.write"
      (intelligenceResource owned "intelligence" credentialRef) → Warranted own call.authority op) :
    GrowsConfiguration call
      (IntelligenceService.setEffect owned selection credentialRef principal) own
      (fun _ _ => True) := by
  unfold IntelligenceService.setEffect
  refine Traced.Grows.bind (grows_load owned) ?_ (fun _ _ _ _ => trivial)
  intro current own₁ hs₁ hread
  obtain ⟨hstored, hbinding⟩ := hread current rfl
  refine Traced.Grows.ofExcept_bind ?_ (fun _ _ => trivial)
  intro provider _
  split
  · exact Traced.Grows.settled trivial
  dsimp only
  split
  · exact Traced.Grows.settled trivial
  -- the binding is dropped, re-pointed or left, and then the selection is saved
  have hsave : ∀ own₂ : List (configurationPlatform τ).Step, own <:+ own₂ → ∀ configured : Bool,
      GrowsConfiguration call (do
        IntelligenceService.save owned current.stored selection principal
        let updatedAt ← now
        check (intelligenceView owned.environment selection updatedAt configured)) own₂
        (fun _ _ => True) := by
    intro own₂ hs₂ configured
    refine Traced.Grows.bind (grows_save hcall selection hstored fun item expected hscope hname =>
      (hwarranted _ (.select expected _ hscope hname)).mono hs₂) ?_ (fun _ _ _ _ => trivial)
    intro _ own₃ _ _
    refine Traced.Grows.bind (grows_quiet (uses_now.mono authority_unmediated)) ?_
      (fun _ _ _ _ => trivial)
    intro updatedAt own₄ _ _
    exact Traced.Grows.settled trivial
  split
  · next binding hfound _ _ =>
    split
    · exact hsave own₁ hs₁ _
    · obtain ⟨hscope, hname⟩ := hbinding binding hfound
      refine Traced.Grows.bind (grows_detach hcall ?_) (fun _ own₂ hs₂ _ =>
        hsave own₂ (hs₁.trans hs₂) _) (fun _ _ _ _ => trivial)
      exact (hwarranted _ (.dropSelected hscope hname)).mono hs₁
  · next ref =>
    refine Traced.Grows.bind (grows_bindCredential hcall hbinding ?_) (fun _ own₂ hs₂ _ =>
      hsave own₂ (hs₁.trans hs₂) _) (fun _ _ _ _ => trivial)
    intro item expected hscope hname href
    subst href
    exact (hwarranted _ (.bindSelected expected hscope hname)).mono hs₁
  · exact hsave own₁ hs₁ _

theorem grows_setCredentialEffect (hcall : call.storeInput = none) {credentialRef : String}
    (hwarranted : ∀ op, ChangesUnder owned op "intelligence.credential.set"
      (intelligenceResource owned "credential" (some credentialRef)) →
      Warranted own call.authority op) :
    GrowsConfiguration call
      (IntelligenceService.setCredentialEffect owned credentialRef principal) own
      (fun _ _ => True) := by
  unfold IntelligenceService.setCredentialEffect
  refine Traced.Grows.bind (grows_load owned) ?_ (fun _ _ _ _ => trivial)
  intro current own₁ hs₁ hread
  obtain ⟨-, hbinding⟩ := hread current rfl
  split
  · refine Traced.Grows.ofExcept_bind ?_ (fun _ _ => trivial)
    intro provider _
    split
    · exact Traced.Grows.settled trivial
    refine Traced.Grows.bind (grows_bindCredential hcall hbinding ?_)
      (fun _ _ _ _ => Traced.Grows.settled trivial) (fun _ _ _ _ => trivial)
    intro item expected hscope hname href
    subst href
    exact (hwarranted _ (.setCredential expected hscope hname)).mono hs₁
  · exact Traced.Grows.settled trivial

theorem grows_removeCredentialEffect (hcall : call.storeInput = none)
    (hwarranted : ∀ op, ChangesUnder owned op "intelligence.credential.remove"
      (intelligenceResource owned "credential" none) → Warranted own call.authority op) :
    GrowsConfiguration call (IntelligenceService.removeCredentialEffect owned principal) own
      (fun _ _ => True) := by
  unfold IntelligenceService.removeCredentialEffect
  refine Traced.Grows.bind (grows_load owned) ?_ (fun _ _ _ _ => trivial)
  intro current own₁ hs₁ hread
  obtain ⟨-, hbinding⟩ := hread current rfl
  split
  · refine Traced.Grows.ofExcept_bind ?_ (fun _ _ => trivial)
    intro provider _
    split
    · exact Traced.Grows.settled trivial
    cases hfound : current.binding with
    | none => exact Traced.Grows.settled trivial
    | some binding =>
      obtain ⟨hscope, hname⟩ := hbinding binding hfound
      refine Traced.Grows.bind (grows_detach hcall ?_)
        (fun _ _ _ _ => Traced.Grows.settled trivial) (fun _ _ _ _ => trivial)
      exact (hwarranted _ (.removeCredential hscope hname)).mono hs₁
  · exact Traced.Grows.settled trivial

/-- A call of the intelligence service writes what its own capability covers. -/
theorem grows_intelligence (service : IntelligenceService) (request : IntelligenceCall)
    (caller : PrincipalInput) (hauthority : call.authority = service.authority)
    (hcall : call.storeInput = none) :
    GrowsConfiguration call (service.perform caller request) own (fun _ _ => True) := by
  -- a decision met by the effect warrants what it covers
  have hcovered : ∀ {owned : ConfigurationScope} {principal : VerifiedPrincipal}
      {gateway : ServiceGateway} {capability decisionId : String} {resource : ServiceResource}
      {own' : List (configurationPlatform τ).Step},
      OwnedBy service.authority principal owned → service.authority = some gateway →
      owned.applicationId = gateway.application →
      Authorized own' gateway capability (.of principal) resource decisionId →
      ∀ op, ChangesUnder owned op capability resource → Warranted own' call.authority op := by
    intro owned principal gateway capability decisionId resource own' howned hgateway happlication
      hallowed op hunder
    obtain ⟨_, -, htenant, -⟩ := howned
    exact warranted_of (hauthority.trans hgateway) htenant happlication hallowed hunder
  have hreads : ∀ (owned : ConfigurationScope) {own' : List (configurationPlatform τ).Step},
      GrowsConfiguration call (IntelligenceService.load owned) own' (fun _ _ => True) :=
    fun owned _ => Traced.Grows.mono (grows_load owned) fun _ _ _ _ => trivial
  cases request with
  | catalog scope =>
    refine Traced.Grows.bind (Q := fun _ _ => True) ?_
      (fun _ _ _ _ => Traced.Grows.settled trivial) (fun _ _ _ _ => trivial)
    refine Traced.Grows.bind (grows_intelligenceOwn service _ caller) ?_ (fun _ _ _ _ => trivial)
    rintro ⟨principal, owned⟩ own₁ - howned
    refine Traced.Grows.mono (grows_request (R := fun _ _ => True) (fun _ _ _ _ _ => trivial)
      (fun _ => intelligenceGateway_ok) (howned _ rfl) ?_) (fun _ _ _ _ => trivial)
    intro gateway context run own₂ _ _ _ _ _
    exact Traced.Grows.settled fun _ _ => trivial
  | get scope =>
    refine Traced.Grows.bind (Q := fun _ _ => True) ?_
      (fun _ _ _ _ => Traced.Grows.settled trivial) (fun _ _ _ _ => trivial)
    refine Traced.Grows.bind (grows_intelligenceOwn service _ caller) ?_ (fun _ _ _ _ => trivial)
    rintro ⟨principal, owned⟩ own₁ - howned
    refine Traced.Grows.mono (grows_request (R := fun _ _ => True) (fun _ _ _ _ _ => trivial)
      (fun _ => intelligenceGateway_ok) (howned _ rfl) ?_) (fun _ _ _ _ => trivial)
    intro gateway context run own₂ _ _ _ _ _
    refine grows_done (Q := fun _ _ => True) ?_
    refine Traced.Grows.bind (hreads owned) ?_ (fun _ _ _ _ => trivial)
    intro current own₃ _ _
    split <;> exact Traced.Grows.settled trivial
  | set input =>
    refine Traced.Grows.bind (Q := fun _ _ => True) ?_
      (fun _ _ _ _ => Traced.Grows.settled trivial) (fun _ _ _ _ => trivial)
    refine Traced.Grows.ofExcept_bind ?_ (fun _ _ => trivial)
    intro _ _
    refine Traced.Grows.bind (grows_intelligenceOwn service _ caller) ?_ (fun _ _ _ _ => trivial)
    rintro ⟨principal, owned⟩ own₁ - howned
    refine Traced.Grows.ofExcept_bind ?_ (fun _ _ => trivial)
    intro selection _
    refine Traced.Grows.ofExcept_bind ?_ (fun _ _ => trivial)
    intro credentialRef _
    refine Traced.Grows.mono (grows_request (R := fun _ _ => True) (fun _ _ _ _ _ => trivial)
      (fun _ => intelligenceGateway_ok) (howned _ rfl) ?_) (fun _ _ _ _ => trivial)
    intro gateway context run own₂ _ hgateway happlication _ hallowed
    exact grows_done (grows_setEffect hcall (hcovered (howned _ rfl) hgateway happlication hallowed))
  | setCredential input =>
    refine Traced.Grows.bind (Q := fun _ _ => True) ?_
      (fun _ _ _ _ => Traced.Grows.settled trivial) (fun _ _ _ _ => trivial)
    refine Traced.Grows.ofExcept_bind ?_ (fun _ _ => trivial)
    intro _ _
    refine Traced.Grows.bind (grows_intelligenceOwn service _ caller) ?_ (fun _ _ _ _ => trivial)
    rintro ⟨principal, owned⟩ own₁ - howned
    refine Traced.Grows.ofExcept_bind ?_ (fun _ _ => trivial)
    intro credentialRef _
    refine Traced.Grows.mono (grows_request (R := fun _ _ => True) (fun _ _ _ _ _ => trivial)
      (fun _ => intelligenceGateway_ok) (howned _ rfl) ?_) (fun _ _ _ _ => trivial)
    intro gateway context run own₂ _ hgateway happlication _ hallowed
    exact grows_done (grows_setCredentialEffect hcall
      (hcovered (howned _ rfl) hgateway happlication hallowed))
  | removeCredential scope =>
    refine Traced.Grows.bind (Q := fun _ _ => True) ?_
      (fun _ _ _ _ => Traced.Grows.settled trivial) (fun _ _ _ _ => trivial)
    refine Traced.Grows.bind (grows_intelligenceOwn service _ caller) ?_ (fun _ _ _ _ => trivial)
    rintro ⟨principal, owned⟩ own₁ - howned
    refine Traced.Grows.mono (grows_request (R := fun _ _ => True) (fun _ _ _ _ _ => trivial)
      (fun _ => intelligenceGateway_ok) (howned _ rfl) ?_) (fun _ _ _ _ => trivial)
    intro gateway context run own₂ _ hgateway happlication _ hallowed
    exact grows_done (grows_removeCredentialEffect hcall
      (hcovered (howned _ rfl) hgateway happlication hallowed))
  | resolveRuntime scope =>
    refine Traced.Grows.bind (grows_intelligenceOwn service _ caller) ?_ (fun _ _ _ _ => trivial)
    rintro ⟨principal, owned⟩ own₁ - howned
    refine Traced.Grows.mono (grows_request (R := fun _ _ => True) (fun _ _ _ _ _ => trivial)
      (fun _ => intelligenceGateway_ok) (howned _ rfl) ?_) (fun _ _ _ _ => trivial)
    intro gateway context run own₂ _ _ _ _ _
    refine grows_done (Q := fun _ _ => True) ?_
    refine Traced.Grows.bind (hreads owned) ?_ (fun _ _ _ _ => trivial)
    intro current own₃ _ _
    split
    · exact Traced.Grows.settled trivial
    · exact Traced.Grows.ofExcept_bind (fun _ _ => Traced.Grows.settled trivial)
        (fun _ _ => trivial)

end intelligence

/-- Every call keeps to the discipline. -/
theorem configurationTraces_obeyed : (configurationTraces τ).Obeyed := by
  intro call
  have hdone : ∀ {α : Type} {t : Svc τ α}, GrowsConfiguration call t [] (fun _ _ => True) →
      GrowsConfiguration call (t.bind fun _ => pure none) [] (ConfigurationSettled call) := by
    intro α t ht
    refine Traced.Grows.bind ht ?_ ?_
    · intro _ own _ _
      refine Traced.Grows.settled fun _ _ _ h => ?_
      cases h
    · intro _ _ _ _ _ _ _ h
      cases h
  refine Discipline.Conforms.mono (fun _ _ h => h.2)
    (show GrowsConfiguration call (configurationBody call) [] (ConfigurationSettled call) from ?_)
  cases call with
  | authenticate claims verifiedBy =>
    exact hdone (grows_quiet ((uses_mintVerifiedPrincipal _ _).mono authority_unmediated))
  | transfer deps document options => exact hdone (grows_importConfiguration deps _ _ rfl rfl)
  | intelligence service request caller =>
    exact hdone (grows_intelligence service request caller rfl rfl)
  | configuration service request caller =>
    cases request with
    | list scope => exact hdone (grows_list service _ _)
    | createVariable input => exact hdone (grows_createVariable service _ _ rfl rfl)
    | updateVariable input => exact hdone (grows_updateVariable service _ _ rfl rfl)
    | deleteVariable scope name => exact hdone (grows_deleteVariable service _ _ _ rfl rfl)
    | createSecret input => exact hdone (grows_createSecret service _ _ rfl rfl)
    | rotateSecret input => exact hdone (grows_rotateSecret service _ _ rfl rfl)
    | deleteSecret scope name => exact hdone (grows_deleteSecret service _ _ _ rfl rfl)
    | storeCredential input =>
      refine Traced.Grows.bind (grows_storeCredential service input caller rfl rfl) ?_ ?_
      · intro result own _ hstored
        refine Traced.Grows.settled fun input' result' hinput h => ?_
        obtain rfl := Option.some.inj (Except.ok.inj h)
        exact hstored result input' hinput rfl
      · intro _ _ _ _ _ _ _ h
        cases h

end conformance

/-! ## Rows and where they come from -/

section rows

variable [Timestamp τ]

/-- Only the writes of the configuration store change its rows. -/
theorem exec_rows {op : AppOp τ} {choice : Choice} {w w' : World τ}
    {res : Except JsError (op.Out τ)} (h : op.exec choice w = some (res, w')) :
    SameRows w.configuration w'.configuration ∨ ∃ o, op = .configuration o ∧ o.changes = true ∧
      w'.configuration = (ConfigurationOp.exec w.configuration o).2 := by
  have hstored : ∀ {β : Type} {r : Except JsError β × World τ} {res : Except JsError β},
      SameRows w.configuration r.2.configuration → stored choice w r = some (res, w') →
      SameRows w.configuration w'.configuration := by
    intro β r res hr hs
    rcases stored_cases hs with ⟨-, rfl⟩ | ⟨_, -, rfl | rfl⟩
    · exact hr
    · exact hr
    · exact .of_eq rfl
  have hsame : SameRows w.configuration w.configuration := .of_eq rfl
  cases op with
  | authority o => exact .inl (.of_eq (AuthorityOp.exec_stores h).configuration)
  | jobs o => exact .inl (hstored hsame h)
  | schedules o => exact .inl (hstored hsame h)
  | webhooks o => exact .inl (hstored hsame h)
  | notifications o => exact .inl (hstored hsame h)
  | apiKeys o => exact .inl (hstored hsame h)
  | secretMetadata o => exact .inl (hstored hsame h)
  | audit o => cases o <;> exact .inl (hstored hsame h)
  | host o => exact .inl (.of_eq (by rw [o.exec_world h]))
  | commit ops =>
    refine .inl (hstored ?_ h)
    split
    · next w₁ hall =>
      refine applyAll_rel (R := fun w w' => SameRows w.configuration w'.configuration)
        (fun _ => .of_eq rfl) (fun h₁ h₂ => ⟨h₂.1.trans h₁.1, h₂.2.trans h₁.2⟩)
        (fun op _ w w' hop => ?_) hall
      cases op <;> simp only [TransactionOperation.apply, Option.map_eq_some_iff] at hop
      case jobAudit | webhookAudit | notificationAudit =>
        cases hop
        exact .of_eq rfl
      all_goals
        obtain ⟨t, -, rfl⟩ := hop
        exact .of_eq rfl
    · exact hsame
  | configuration o =>
    rcases stored_cases h with ⟨-, rfl⟩ | ⟨_, -, rfl | rfl⟩
    · by_cases hchanges : o.changes = true
      · exact .inr ⟨o, rfl, hchanges, rfl⟩
      · cases o <;> first | exact .inl ⟨rfl, rfl⟩ | exact absurd rfl hchanges
    · by_cases hchanges : o.changes = true
      · exact .inr ⟨o, rfl, hchanges, rfl⟩
      · cases o <;> first | exact .inl ⟨rfl, rfl⟩ | exact absurd rfl hchanges
    · exact .inl hsame

omit [Timestamp τ] in
/-- A row that is saved is the one that was handed over, up to its version. -/
theorem get_saveItem {α : Type} [Versioned α] {t t' : Table String α} {id id' : String}
    {item row : α} {expected : Option Nat} {r : Except JsError Unit}
    (h : saveItem t id item expected = (r, t')) (hget : t'.get id' = some row) :
    t.get id' = some row ∨ (id' = id ∧
      (row = item ∨ row = Versioned.withVersion item (Versioned.version row))) := by
  unfold saveItem at h
  cases expected with
  | none =>
    simp only at h
    split at h
    · next t₁ hinsert =>
      obtain ⟨-, rfl⟩ := Table.insertAbsent_eq_some hinsert
      obtain ⟨-, rfl⟩ := Prod.mk.inj h
      rw [Table.get_put] at hget
      by_cases hid : id' = id
      · rw [if_pos hid] at hget
        exact .inr ⟨hid, .inl (Option.some.inj hget).symm⟩
      · rw [if_neg hid] at hget
        exact .inl hget
    · obtain ⟨-, rfl⟩ := Prod.mk.inj h
      exact .inl hget
  | some version =>
    simp only at h
    rcases hupdate : t.updateIfVersion id version (fun _ => item) with ⟨answer, t₁⟩
    have hafter : t' = t₁ := by
      rw [hupdate] at h
      cases answer with
      | some _ => exact (Prod.mk.inj h).2.symm
      | none => exact (Prod.mk.inj h).2.symm
    subst hafter
    rcases Table.updateIfVersion_eq hupdate with ⟨a, -, -, -, rfl⟩ | ⟨-, rfl⟩
    · rw [Table.get_put] at hget
      by_cases hid : id' = id
      · rw [if_pos hid] at hget
        obtain rfl := (Option.some.inj hget).symm
        exact .inr ⟨hid, .inr (by rw [Versioned.version_withVersion])⟩
      · rw [if_neg hid] at hget
        exact .inl hget
    · exact .inl hget

/-- Some call wrote the variable. -/
def WroteVariable (past : (configurationPlatform τ).History) (id : String)
    (row : ConfigurationVariable τ) : Prop :=
  ∃ pid step item expected, .ran pid step ∈ past ∧
    step.op = .configuration (.saveVariable item expected) ∧ item.id = id ∧
    row = { item with version := row.version }

/-- Some call wrote the binding. -/
def WroteBinding (past : (configurationPlatform τ).History) (id : String)
    (row : ConfigurationSecret τ) : Prop :=
  ∃ pid step item expected, .ran pid step ∈ past ∧
    step.op = .configuration (.saveSecret item expected) ∧ item.id = id ∧
    row = { item with version := row.version }

/-- Every row stood at the start, or some call wrote it. -/
structure Provenance (w : World τ) (c : (configurationPlatform τ).Config) : Prop where
  variableRows : ∀ id row, c.world.configuration.variableTable.get id = some row →
    w.configuration.variableTable.get id = some row ∨ WroteVariable c.past id row
  bindingRows : ∀ id row, c.world.configuration.secretTable.get id = some row →
    w.configuration.secretTable.get id = some row ∨ WroteBinding c.past id row

theorem WroteVariable.cons {past : (configurationPlatform τ).History} {id : String}
    {row : ConfigurationVariable τ} (h : WroteVariable past id row)
    (e : (configurationPlatform τ).Event) : WroteVariable (e :: past) id row := by
  obtain ⟨pid, step, item, expected, hmem, hrest⟩ := h
  exact ⟨pid, step, item, expected, List.mem_cons_of_mem _ hmem, hrest⟩

theorem WroteBinding.cons {past : (configurationPlatform τ).History} {id : String}
    {row : ConfigurationSecret τ} (h : WroteBinding past id row)
    (e : (configurationPlatform τ).Event) : WroteBinding (e :: past) id row := by
  obtain ⟨pid, step, item, expected, hmem, hrest⟩ := h
  exact ⟨pid, step, item, expected, List.mem_cons_of_mem _ hmem, hrest⟩

/-- What is changed by a step is what it writes. -/
theorem Provenance.step {w world : World τ} {c : (configurationPlatform τ).Config}
    (h : Provenance w c) {pid : Nat} {call : ConfigurationCall τ} {op : AppOp τ} {choice : Choice}
    {res : Except JsError (op.Out τ)} {procs : List (Option (configurationPlatform τ).Process)}
    (hexec : op.exec choice c.world = some (res, world)) :
    Provenance w { procs := procs, world := world
                   past := .ran pid ⟨call, op, res, c.world, world⟩ :: c.past } := by
  constructor
  · intro id row hget
    have hold : c.world.configuration.variableTable.get id = some row →
        w.configuration.variableTable.get id = some row ∨ WroteVariable
          (.ran pid ⟨call, op, res, c.world, world⟩ :: c.past) id row := fun hkept =>
      (h.variableRows id row hkept).imp_right fun hwrote => hwrote.cons _
    rcases exec_rows hexec with hrows | ⟨o, rfl, hchanges, hafter⟩
    · rw [hrows.1] at hget
      exact hold hget
    · rw [hafter] at hget
      cases o with
      | saveVariable item expected =>
        rcases get_saveItem rfl hget with hkept | ⟨hid, hwritten⟩
        · exact hold hkept
        · refine .inr ⟨pid, _, item, expected, List.mem_cons_self, rfl, hid.symm, ?_⟩
          rcases hwritten with rfl | heq
          · rfl
          · exact heq
      | deleteVariable item =>
        refine hold ?_
        simp only [ConfigurationOp.exec, Table.get_erase] at hget
        split at hget
        · cases hget
        · exact hget
      | saveSecret | deleteSecret => exact hold hget
      | listVariables | getVariable | listSecrets | getSecret | audit => cases hchanges
  · intro id row hget
    have hold : c.world.configuration.secretTable.get id = some row →
        w.configuration.secretTable.get id = some row ∨ WroteBinding
          (.ran pid ⟨call, op, res, c.world, world⟩ :: c.past) id row := fun hkept =>
      (h.bindingRows id row hkept).imp_right fun hwrote => hwrote.cons _
    rcases exec_rows hexec with hrows | ⟨o, rfl, hchanges, hafter⟩
    · rw [hrows.2] at hget
      exact hold hget
    · rw [hafter] at hget
      cases o with
      | saveSecret item expected =>
        rcases get_saveItem rfl hget with hkept | ⟨hid, hwritten⟩
        · exact hold hkept
        · refine .inr ⟨pid, _, item, expected, List.mem_cons_self, rfl, hid.symm, ?_⟩
          rcases hwritten with rfl | heq
          · rfl
          · exact heq
      | deleteSecret item =>
        refine hold ?_
        simp only [ConfigurationOp.exec, Table.get_erase] at hget
        split at hget
        · cases hget
        · exact hget
      | saveVariable | deleteVariable => exact hold hget
      | listVariables | getVariable | listSecrets | getSecret | audit => cases hchanges

theorem provenance_of_run {w : World τ} {as : List (configurationPlatform τ).Action}
    {c : (configurationPlatform τ).Config} (hrun : run (Config.init w) as = some c) :
    Provenance w c := by
  have hinit : Provenance w (Config.init w : (configurationPlatform τ).Config) :=
    ⟨fun _ _ h => .inl h, fun _ _ h => .inl h⟩
  refine run_induction (P := configurationPlatform τ) (Provenance w) hinit ?_ as hrun
  intro c a c' hc hact
  cases a with
  | spawn call =>
    obtain rfl := (Option.some.inj hact).symm
    exact ⟨hc.variableRows, hc.bindingRows⟩
  | step pid choice =>
    obtain ⟨call, op, k, res, world, -, hexec, rfl⟩ := act_step hact
    exact hc.step hexec
  | stop pid =>
    obtain ⟨p, -, rfl⟩ := act_stop hact
    exact ⟨fun id row hget => (hc.variableRows id row hget).imp_right fun h => h.cons _,
      fun id row hget => (hc.bindingRows id row hget).imp_right fun h => h.cons _⟩
  | env move =>
    obtain ⟨world, henv, rfl⟩ := act_env hact
    obtain rfl := (Option.some.inj henv).symm
    exact ⟨hc.variableRows, hc.bindingRows⟩

/-- A step of a run is an answer to its call. -/
theorem exec_of_past {w : World τ} {as : List (configurationPlatform τ).Action}
    {c : (configurationPlatform τ).Config} (hrun : run (Config.init w) as = some c)
    {newer older : (configurationPlatform τ).History} {pid : Nat}
    {step : (configurationPlatform τ).Step} (hpast : c.past = newer ++ .ran pid step :: older) :
    ∃ choice, step.op.exec choice step.before = some (step.res, step.after) := by
  have hviews := (views (P := configurationPlatform τ) (f := fun _ => ()) (fun _ _ _ _ => rfl) hrun).2
  rw [hpast] at hviews
  exact (Throughout.split _ hviews).2

end rows

/-! ## The guarantees -/

section guarantees

variable [Timestamp τ] {w : World τ} {as : List (configurationPlatform τ).Action}
  {c : (configurationPlatform τ).Config}

end guarantees

/-! ### A credential that is stored and bound -/

section sample

/-- A service whose host keeps credentials. -/
def custodyService : ConfigurationService where
  authority := some { application := "crm", authorizer := true, credentials := true
                      storesCredentials := true }

def mailCredential : CredentialStoreInput where
  ref := .str "credential-ref:mail"
  value := .str "hunter22"
  name := .str "MAIL_KEY"

def storing : ConfigurationCall Nat :=
  .configuration custodyService (.storeCredential (some mailCredential)) (.of operator)

/-- The authorizer allows a capability on the binding. -/
def allowsBinding (capability : String) : Choice :=
  .decision false (.ok (.obj [
    ("decision_id", .str "d1"), ("allowed", .bool true), ("capability", .str capability),
    ("tenant_id", .str "acme"), ("application_id", .str "crm"),
    ("subject", .obj [("id", .str "op")]),
    ("resource", .obj [("uri", .str "appport://crm/tenants/acme/credential/production%2FMAIL_KEY")])]))

/-- The store and the attachment are allowed, custody stores the value, and it is bound. -/
def storingAnswers : List Choice :=
  [.proceed, .draw "r1", .proceed, .proceed, .proceed, .proceed, allowsBinding "credential.store",
    .proceed, .proceed, .proceed, .proceed, .proceed, .draw "row-1", .proceed, .proceed, .proceed,
    .draw "r2", .proceed, .proceed, .proceed, allowsBinding "credential.attach", .proceed, .proceed,
    .proceed, .proceed, .proceed, .proceed, .secret (.resolved (.obj [("writable", .bool true)])),
    .secret (.resolved (.obj [("version", .num 1), ("storedAt", .str "today")])), .proceed,
    .draw "s1", .proceed, .draw "v1", .proceed, .draw "e1", .proceed, .proceed, .proceed, .proceed,
    .draw "row-2", .proceed, .proceed, .draw "b1", .proceed, .draw "a1"] ++ List.replicate 10 .proceed

def storedAndBound : List (configurationPlatform Nat).Action :=
  .spawn storing :: storingAnswers.map (.step 0)

/-- The call has returned, and the binding stands. -/
def boundAs (c : (configurationPlatform Nat).Config) : Bool :=
  match c.proc 0 with
  | some ⟨call, .settled (.ok (some result))⟩ => call.storeInput.isSome &&
      result.ref == "credential-ref:mail" && result.binding.isSome &&
      (c.world.configuration.secretTable.get "b1").any fun row =>
        row.credentialRef == "credential-ref:mail"
  | _ => false

end sample

end AppPort
