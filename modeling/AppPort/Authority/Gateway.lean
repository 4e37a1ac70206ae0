import AppPort.Authority.Manifest
import AppPort.Runtime.World

/-!
# The service gateway

The policy enforcement point every protected operation goes through, function by
function. The order is fixed: capability, resource type, verified principal,
ownership, live credential, authorizer; then a context, a durable `started` row,
and only then the effect.

`execute` is generic in the effect: an effect is any task, and a service passes
its own.
-/

namespace AppPort

open Effects

variable {τ : Type} {α : Type}

def CONTEXT_TTL_MS : Nat := 60000

def DEFAULT_AUTHORIZATION_TIMEOUT_MS : Nat := 5000

/-- The gateway's configuration. Whether an authorizer and a credential resolver
were given, and whether the resolver can also store, is all that matters of them; what
they answer is the scheduler's. -/
structure ServiceGateway where
  application : String
  authorizer : Bool
  credentials : Bool
  storesCredentials : Bool := false
  authorizationTimeoutMs : Nat := DEFAULT_AUTHORIZATION_TIMEOUT_MS
  extensionCapabilities : List ServiceCapability := []
  deriving DecidableEq, Repr

structure ExecuteOptions where
  service : String
  provider : Option String := none
  credentialRef : Option String := none
  requestId : Option String := none
  deriving DecidableEq, Repr

/-- What an effect may ask the gateway for: the run it belongs to and its context. -/
structure EffectTools (τ : Type) where
  run : String
  context : ServiceExecutionContext τ
  provider : Option String

/-! ## Identity -/

/-- `mintVerifiedPrincipal`. -/
def mintVerifiedPrincipal (claims : PrincipalClaims) (verifiedBy : PrincipalVerification) :
    Svc τ VerifiedPrincipal :=
  match missingClaim claims with
  | some field =>
    throw (serviceError .unauthenticated ("Authenticated identity is missing " ++ field))
  | none => (AuthorityOp.mint claims verifiedBy).perform

/-- `requireVerifiedPrincipal`. -/
def requireVerifiedPrincipal (value : PrincipalInput) : Svc τ VerifiedPrincipal :=
  match value with
  | .object p _ => do
    let verified : Bool ← (AuthorityOp.isVerified p).perform
    if verified then pure p else throw (unverifiedError value)
  | _ => throw (unverifiedError value)

/-- `enforceCredential`: a bound check can only deny, and a key-backed principal
must have one. -/
def enforceCredential (principal : VerifiedPrincipal) (capability : String)
    (resource : ServiceResource) : Svc τ Unit := do
  let bound : Bool ← (AuthorityOp.hasBinding principal).perform
  if bound then
    (AuthorityOp.checkCredential principal capability resource).perform.tryCatch fun error =>
      match error with
      | .authority _ => throw error
      | .conflict _ | .validation _ | .other _ => throw (serviceError .authorityUnavailable
          "API-key credential state could not be read"
          { capability := some capability, reason := some "credential_store_unavailable" })
  else if principal.verifiedBy = .apiKey then
    throw (serviceError .denied "API-key principal is not bound to a live credential"
      { capability := some capability, reason := some "credential_unbound" })
  else pure ()

namespace ServiceGateway

variable (gateway : ServiceGateway)

/-- `capability`: the static manifest's, or one a registered extension declared. -/
def capability (name : String) : Option ServiceCapability :=
  getServiceCapability name <|> gateway.extensionCapabilities.find? (fun c => c.name == name)

/-- `identify`: brand the claims of a host's authentication adapter. -/
def identify (claims : PrincipalClaims) : Svc τ VerifiedPrincipal :=
  if present claims.applicationId ∧ claims.applicationId ≠ some gateway.application then
    throw (serviceError .denied "Identity belongs to a different application"
      { reason := some "application_mismatch" })
  else mintVerifiedPrincipal claims .host

/-- `assertOwnership`. -/
def assertOwnership (principal : VerifiedPrincipal) (resource : ServiceResource)
    (capability : String) : Except JsError Unit :=
  if resource.tenantId = "" ∨ principal.tenantId ≠ resource.tenantId then
    .error (serviceError .denied "Cross-tenant service operation denied"
      { capability := some capability, reason := some "tenant_mismatch" })
  else if present principal.applicationId ∧ principal.applicationId ≠ some gateway.application then
    .error (serviceError .denied "Principal belongs to a different application"
      { capability := some capability, reason := some "application_mismatch" })
  else .ok ()

/-- `validateDecision`: the reply is a decision, and it is about the request. -/
def validateDecision (request : ServiceAuthorizationRequest τ) (decision : JsValue) : Bool :=
  decision.truthy &&
    (match decision.prop "decision_id" with | .str s => s != "" | _ => false) &&
    (match decision.prop "allowed" with | .bool _ => true | _ => false) &&
    (decision.prop "capability").isText request.capability &&
    (decision.prop "tenant_id").isText request.tenant_id &&
    (decision.prop "application_id").isText request.application_id &&
    ((decision.prop "subject").prop "id").isText request.subjectId &&
    ((decision.prop "resource").prop "uri").isText request.resourceUri

/-- `decide`: one answer of the authorizer, validated, or an authority failure. -/
def decide (request : ServiceAuthorizationRequest τ) : Svc τ JsValue :=
  if gateway.authorizer = false then
    throw (serviceError .authorityUnavailable
      "No AuthBoundry authorizer is configured; service effects are disabled"
      { capability := some request.capability })
  else do
    let race : AuthorizerRace ← (AuthorityOp.authorize request).perform
    match race with
    | .timedOut =>
      throw (serviceError .authorizationTimeout
        ("AuthBoundry did not decide " ++ request.capability ++ " within " ++
          toString gateway.authorizationTimeoutMs ++ "ms")
        { capability := some request.capability })
    | .answered (.error (.authority e)) => throw (.authority e)
    | .answered (.error (.conflict _)) | .answered (.error (.validation _))
    | .answered (.error (.other _)) =>
      throw (serviceError .authorityUnavailable "AuthBoundry authorization failed"
        { capability := some request.capability })
    | .answered (.ok decision) =>
      if validateDecision request decision then pure decision
      else throw (serviceError .authorityUnavailable
        "AuthBoundry returned a decision that does not match the request"
        { capability := some request.capability })

/-- The request `authorize` sends. -/
def request (capability : ServiceCapability) (principal : VerifiedPrincipal)
    (resource : ServiceResource) (requestId : String) (timestamp : τ) :
    ServiceAuthorizationRequest τ where
  request_id := requestId
  subjectKind := principal.principalType
  subjectId := principal.principalId
  tenant_id := resource.tenantId
  application_id := gateway.application
  capability := capability.name
  capability_version := capability.version
  resourceUri := resourceUri gateway.application resource
  resourceAttributes := resource.attributes
  timestamp := timestamp
  verified_by := principal.verifiedBy.text
  delegation_id := keepPresent principal.delegationId
  run_id := keepPresent principal.runId
  credential_id := keepPresent principal.credentialId

/-- `decision.allowed === true`. -/
def isAllow (decision : JsValue) : Bool :=
  match decision.prop "allowed" with
  | .bool b => b
  | _ => false

/-- `authorize`: ask, and mint the context of an allow. -/
def authorize [Timestamp τ] (capabilityName : String) (principalInput : PrincipalInput)
    (resource : ServiceResource) (requestId : String) : Svc τ (ServiceExecutionContext τ) := do
  match gateway.capability capabilityName with
  | none =>
    throw (serviceError .invalidRequest
      ("Capability \"" ++ capabilityName ++ "\" is not declared in the service capability manifest"))
  | some capability =>
    if resource.type ≠ capability.resource then
      throw (serviceError .invalidRequest
        ("Capability \"" ++ capability.name ++ "\" applies to " ++ capability.resource ++
          " resources, not " ++ resource.type) { capability := some capability.name })
    else
      let principal ← requireVerifiedPrincipal principalInput
      check (gateway.assertOwnership principal resource capabilityName)
      enforceCredential principal capability.name resource
      let timestamp ← now
      let request := gateway.request capability principal resource requestId timestamp
      let decision ← gateway.decide request
      if isAllow decision = false then
        throw (serviceError .denied ("AuthBoundry denied " ++ capability.name)
          { capability := some capability.name
            decisionId := (decision.prop "decision_id").text?
            reason := (decision.prop "reason").text? })
      else
        let decidedAt ← now
        let issuedAt ← now
        let expiresAt ← check (laterThan issuedAt CONTEXT_TTL_MS)
        (AuthorityOp.issue {
          application := gateway.application
          tenantId := resource.tenantId
          principal := principal
          capability := capability.name
          capabilityVersion := capability.version
          requestId := requestId
          resource := resource
          resourceUri := request.resourceUri
          authorization := {
            decisionId := ((decision.prop "decision_id").text?).getD ""
            decidedAt := decidedAt
            policyVersion := keepPresent (decision.prop "policy_version").text?
            reason := keepPresent (decision.prop "reason").text? }
          expiresAt := expiresAt }).perform

/-! ## Evidence -/

/-- `effectiveDelegation`: an explicit resource attribute, else the principal's. -/
def effectiveDelegation (context : ServiceExecutionContext τ) : Option String :=
  context.resource.attribute "delegationId" <|> context.principal.delegationId

/-- `evidenceFor`. -/
def evidenceFor (context : ServiceExecutionContext τ) (options : ExecuteOptions) (id : String)
    (startedAt : τ) (outcome : EffectOutcome) : EffectEvidence τ where
  id := id
  application := context.application
  tenantId := context.tenantId
  principalId := context.principal.principalId
  principalType := context.principal.principalType
  delegationId := keepPresent (effectiveDelegation context)
  runId := keepPresent context.principal.runId
  capability := context.capability
  capabilityVersion := context.capabilityVersion
  resource := context.resourceUri
  decision := .allow
  decisionId := some context.authorization.decisionId
  credentialRef := keepPresent options.credentialRef
  service := options.service
  provider := keepPresent options.provider
  requestId := context.requestId
  startedAt := startedAt
  completedAt := if outcome = .started then none else some startedAt
  outcome := outcome
  failureCode := none

/-- `evidence.complete`: read the row, merge, write it back. -/
def completeEvidence (id : String) (updates : EvidenceCompletion τ) : Svc τ Unit := do
  check updates.assertHasNoSecrets
  let current : Option (EffectEvidence τ) ← (AuthorityOp.getEvidence id).perform
  match current with
  | none => throw (.other ("Evidence " ++ id ++ " not found"))
  | some row => (AuthorityOp.putEvidence id (row.complete updates)).perform

/-- The row `recordRefusal` writes. -/
def refusalFor (capability : String) (principal : VerifiedPrincipal) (resource : ServiceResource)
    (options : ExecuteOptions) (requestId : String) (startedAt : τ) (error : ServiceAuthorityError)
    (id : String) (completedAt : τ) : EffectEvidence τ where
  id := id
  application := gateway.application
  tenantId := resource.tenantId
  principalId := principal.principalId
  principalType := principal.principalType
  delegationId := keepPresent principal.delegationId
  runId := keepPresent principal.runId
  capability := capability
  capabilityVersion := ((gateway.capability capability).map ServiceCapability.version).getD 0
  resource := resourceUri gateway.application resource
  decision := if present error.details.decisionId then .deny else .none
  decisionId := keepPresent error.details.decisionId
  credentialRef := none
  service := options.service
  provider := keepPresent options.provider
  requestId := requestId
  startedAt := startedAt
  completedAt := some completedAt
  outcome := .denied
  failureCode := some error.code.text

/-- `recordRefusal`: authority failures leave a row, on a best-effort basis. -/
def recordRefusal (capability : String) (principalInput : PrincipalInput)
    (resource : ServiceResource) (options : ExecuteOptions) (requestId : String) (startedAt : τ)
    (error : JsError) : Svc τ Unit :=
  match error, principalInput with
  | .authority e, .object principal _ =>
    if e.code = .invalidRequest ∨ e.code = .unauthenticated then pure ()
    else do
      let id ← randomUUID
      let completedAt ← now
      (AuthorityOp.recordEvidence (gateway.refusalFor capability principal resource options requestId
        startedAt e id completedAt)).perform.ignore
  | _, _ => pure ()

/-! ## Effects -/

/-- `refUpdate`: the credential reference a completed row names. -/
def refUpdate (options : ExecuteOptions) (resolved : List String) : Option String :=
  keepPresent (options.credentialRef <|> resolved.head?)

/-- The outcome of an effect that threw. -/
def failureOutcome (error : JsError) : EffectOutcome :=
  match error.code? with
  | some .providerError => .providerError
  | some .denied => .denied
  | _ => .failed

/-- What is left of `run` once its `started` row stands: the effect, then the
completion of the row. -/
def perform (context : ServiceExecutionContext τ) (options : ExecuteOptions) (evidenceId : String)
    (effect : ServiceExecutionContext τ → EffectTools τ → Svc τ α) : Svc τ α :=
  Task.tryCatch
    (do
      let result ← effect context ⟨evidenceId, context, options.provider⟩
      let refs : List String ← (AuthorityOp.resolvedRefs evidenceId).perform
      let completedAt ← now
      completeEvidence evidenceId
        { outcome := .succeeded, completedAt, credentialRef := refUpdate options refs }
      pure result)
    fun error => do
      let refs : List String ← (AuthorityOp.resolvedRefs evidenceId).perform
      let completedAt ← now
      Task.ignore (completeEvidence evidenceId
        { outcome := failureOutcome error
          completedAt
          failureCode := some ((error.code?.map ServiceFailureCode.text).getD "EFFECT_FAILED")
          credentialRef := refUpdate options refs })
      throw error

/-- `run`: perform an effect under an issued context. -/
def run [Timestamp τ] (contextInput : ServiceExecutionContext τ) (options : ExecuteOptions)
    (effect : ServiceExecutionContext τ → EffectTools τ → Svc τ α) (startedAt : τ) : Svc τ α := do
  let at_ ← now
  let issued : Bool ← (AuthorityOp.isIssued contextInput).perform
  let context ← check (assertExecutionContext contextInput issued contextInput.capability none at_)
  let evidenceId ← randomUUID
  (AuthorityOp.recordEvidence (evidenceFor context options evidenceId startedAt .started)).perform
  perform context options evidenceId effect

/-- `options.requestId ?? randomUUID()`. -/
def requestIdOf (options : ExecuteOptions) : Svc τ String :=
  match options.requestId with
  | some id => pure id
  | none => randomUUID

/-- `execute`: authorize and perform one effect. A refusal is recorded and thrown. -/
def execute [Timestamp τ] (capabilityName : String) (principalInput : PrincipalInput)
    (resource : ServiceResource) (options : ExecuteOptions)
    (effect : ServiceExecutionContext τ → EffectTools τ → Svc τ α) : Svc τ α := do
  let requestId ← requestIdOf options
  let startedAt ← now
  let context ← (gateway.authorize capabilityName principalInput resource requestId).tryCatch
    fun error => do
      gateway.recordRefusal capabilityName principalInput resource options requestId startedAt error
      throw error
  run context options effect startedAt

theorem capability_name {gateway : ServiceGateway} {name : String} {c : ServiceCapability}
    (h : gateway.capability name = some c) : c.name = name := by
  unfold capability at h
  cases hs : getServiceCapability name with
  | some c' =>
    rw [hs] at h
    obtain rfl := Option.some.inj h
    exact getServiceCapability_name hs
  | none =>
    rw [hs] at h
    simpa using List.find?_some h

/-- A principal that passes `assertOwnership` is of the resource's tenant, and of this
application if of any. -/
theorem assertOwnership_ok {gateway : ServiceGateway} {p : VerifiedPrincipal}
    {resource : ServiceResource} {capability : String}
    (h : gateway.assertOwnership p resource capability = .ok ()) :
    p.tenantId = resource.tenantId ∧ resource.tenantId ≠ "" ∧
      (present p.applicationId = true → p.applicationId = some gateway.application) := by
  unfold assertOwnership at h
  split at h
  · cases h
  · next htenant =>
    split at h
    · cases h
    · next happ =>
      obtain ⟨hne, heq⟩ := not_or.mp htenant
      refine ⟨not_not.mp heq, hne, fun hp => ?_⟩
      by_contra hna
      exact happ ⟨hp, hna⟩

/-- What a validated decision says about the request it answers. -/
theorem validateDecision_fields {request : ServiceAuthorizationRequest τ} {decision : JsValue}
    (h : validateDecision request decision = true) :
    (∃ id, decision.prop "decision_id" = .str id ∧ id ≠ "") ∧
    decision.prop "capability" = .str request.capability ∧
    decision.prop "tenant_id" = .str request.tenant_id ∧
    decision.prop "application_id" = .str request.application_id ∧
    (decision.prop "subject").prop "id" = .str request.subjectId ∧
    (decision.prop "resource").prop "uri" = .str request.resourceUri := by
  unfold validateDecision at h
  simp only [Bool.and_eq_true, JsValue.isText_iff] at h
  obtain ⟨⟨⟨⟨⟨⟨⟨-, hid⟩, -⟩, hcap⟩, htenant⟩, happ⟩, hsubject⟩, huri⟩ := h
  refine ⟨?_, hcap, htenant, happ, hsubject, huri⟩
  split at hid
  · next id heq => exact ⟨id, heq, by simpa using hid⟩
  · cases hid

theorem isAllow_iff (decision : JsValue) :
    isAllow decision = true ↔ decision.prop "allowed" = .bool true := by
  unfold isAllow
  split
  · next b heq => simp [heq]
  · next hne =>
    constructor
    · intro h
      cases h
    · intro h
      exact absurd h (hne true)

/-! ## Credentials -/

/-- `mapCredentialFailure`, of a custody's refusal. -/
def mapCredentialFailure (code : Option String) (capability : String) : JsError :=
  let failure (c : ServiceFailureCode) (message : String) (reason : String) : JsError :=
    serviceError c message { capability := some capability, reason := some reason }
  match code with
  | some c =>
    if c = "secret_resolution_denied" ∨ c = "tenant_mismatch" ∨ c = "provider_mismatch" then
      failure .denied "Credential resolution denied by AuthBoundry" c
    else if c = "secret_revoked" ∨ c = "secret_inactive" ∨ c = "secret_expired" then
      failure .denied "Credential is revoked or inactive" c
    else if c = "secret_not_found" then failure .denied "Credential reference is unknown" c
    else failure .authorityUnavailable "Credential custody is unavailable" c
  | none => failure .authorityUnavailable "Credential custody is unavailable" "unknown"

/-- `tools.withCredential`: resolve the credential the effect was authorized for,
and no other, and use it. -/
def withCredential [Timestamp τ] (tools : EffectTools τ) (ref purpose : String)
    (use : JsValue → Svc τ α) : Svc τ α := do
  (AuthorityOp.pushRef tools.run ref).perform
  let at_ ← now
  let issued : Bool ← (AuthorityOp.isIssued tools.context).perform
  let context ← check (assertExecutionContext tools.context issued tools.context.capability none at_)
  if context.resource.attribute "credentialRef" ≠ some ref then
    throw (serviceError .denied "Credential reference was not part of the authorized resource"
      { capability := some context.capability
        decisionId := some context.authorization.decisionId
        reason := some "credential_not_authorized" })
  else if gateway.credentials = false then
    throw (serviceError .authorityUnavailable "No AuthBoundry credential resolver is configured"
      { capability := some context.capability })
  else
    let answer : SecretAnswer ← (HostOp.withSecret {
      credentialRef := ref
      tenantId := context.tenantId
      provider := keepPresent tools.provider
      principalId := context.principal.principalId
      purpose := purpose
      authorizationRef := context.authorization.decisionId }).perform
    match answer with
    | .resolved value => use value
    | .refused code => throw (mapCredentialFailure code context.capability)
    | .failed (.authority e) => throw (.authority e)
    | .failed (.conflict _) | .failed (.validation _) | .failed (.other _) =>
      throw (mapCredentialFailure none context.capability)

/-! ## Attestation -/

/-- The row `attest` looks for. -/
def attests (durable : DurablePrincipal) (creatingCapabilities : List String)
    (row : EffectEvidence τ) : Bool :=
  row.decision == .allow && row.application == gateway.application &&
    row.tenantId == durable.tenantId && row.principalId == durable.principalId &&
    row.principalType == durable.principalType && row.delegationId == durable.delegationId &&
    creatingCapabilities.contains row.capability &&
    (row.outcome == .started || row.outcome == .succeeded)

/-- `attest`: a durable principal is honoured only if allow-evidence of the effect
that created its record exists. -/
def attest (durable : DurablePrincipal) (creatingCapabilities : List String) : Svc τ Unit :=
  match keepPresent durable.authorizedBy with
  | none => throw (serviceError .denied "Durable principal is not bound to an AuthBoundry decision"
      { reason := some "unattested_principal" })
  | some decisionId => do
    let rows : List (EffectEvidence τ) ← (AuthorityOp.findByDecision decisionId).perform
    if rows.any (gateway.attests durable creatingCapabilities) then pure ()
    else throw (serviceError .denied "Durable principal does not match an authorized effect"
      { decisionId := durable.authorizedBy, reason := some "unattested_principal" })

end ServiceGateway

/-! ## Which calls the gateway makes

Everything but the effect itself is calls of the authority group, so a service that
goes through the gateway touches its own stores in its effect only. Of these calls the
gateway makes those that establish no identity, and until an effect begins it touches no
evidence row either, save the row of a refusal. -/

/-- Clock, draws, brands, lookup hints, authorizer and evidence. -/
def authorityCalls : Set (AppOp τ) := {op | ∃ o, op = .authority o}

theorem mem_authorityCalls (op : AuthorityOp τ) : AppOp.authority op ∈ authorityCalls := ⟨op, rfl⟩

theorem AuthorityOp.uses (op : AuthorityOp τ) :
    Task.Uses (S := services τ) authorityCalls op.perform := Task.uses_perform (mem_authorityCalls op)

/-- The call writes an evidence row. -/
def AuthorityOp.writesEvidence : AuthorityOp τ → Bool
  | .recordEvidence _ | .putEvidence _ _ => true
  | _ => false

/-- The call is made where identities are established and keys are managed, and not by the
gateway. -/
def AuthorityOp.identifies : AuthorityOp τ → Bool
  | .mint _ _ | .bindCredential _ _ | .keyMemory _ _ | .randomBytes _ | .listKeyAudit _ => true
  | _ => false

/-- The call belongs to an effect that runs already. -/
def AuthorityOp.pushesRef : AuthorityOp τ → Bool
  | .pushRef _ _ => true
  | _ => false

/-- The calls of the authority group that write no evidence. -/
def decisionCalls : Set (AppOp τ) := {op | ∃ o, op = .authority o ∧ o.writesEvidence = false}

/-- The calls of the gateway. -/
def gatewayCalls : Set (AppOp τ) := {op | ∃ o, op = .authority o ∧ o.identifies = false}

/-- The calls an authorization makes. -/
def consultCalls : Set (AppOp τ) :=
  {op | ∃ o, op = .authority o ∧ o.writesEvidence = false ∧ o.identifies = false ∧
    o.pushesRef = false}

theorem decisionCalls_subset : decisionCalls (τ := τ) ⊆ authorityCalls := by
  rintro op ⟨o, rfl, -⟩
  exact mem_authorityCalls o

theorem gatewayCalls_subset : gatewayCalls (τ := τ) ⊆ authorityCalls := by
  rintro op ⟨o, rfl, -⟩
  exact mem_authorityCalls o

theorem consultCalls_gateway : consultCalls (τ := τ) ⊆ gatewayCalls := by
  rintro op ⟨o, rfl, -, h, -⟩
  exact ⟨o, rfl, h⟩

theorem consultCalls_decision : consultCalls (τ := τ) ⊆ decisionCalls := by
  rintro op ⟨o, rfl, h, -, -⟩
  exact ⟨o, rfl, h⟩

theorem AuthorityOp.decides {op : AuthorityOp τ} (h : op.writesEvidence = false) :
    Task.Uses (S := services τ) decisionCalls op.perform := Task.uses_perform ⟨op, rfl, h⟩

theorem AuthorityOp.mem_gatewayCalls (op : AuthorityOp τ) (h : op.identifies = false) :
    AppOp.authority op ∈ gatewayCalls := ⟨op, rfl, h⟩

theorem AuthorityOp.gateway (op : AuthorityOp τ) (h : op.identifies = false) :
    Task.Uses (S := services τ) gatewayCalls op.perform :=
  Task.uses_perform (op.mem_gatewayCalls h)

theorem AuthorityOp.consults (op : AuthorityOp τ) (hw : op.writesEvidence = false)
    (hi : op.identifies = false) (hp : op.pushesRef = false) :
    Task.Uses (S := services τ) consultCalls op.perform :=
  Task.uses_perform ⟨op, rfl, hw, hi, hp⟩

theorem consults_now : Task.Uses (S := services τ) consultCalls (now (τ := τ)) :=
  AuthorityOp.consults .now rfl rfl rfl

theorem consults_randomUUID : Task.Uses (S := services τ) consultCalls (randomUUID (τ := τ)) :=
  AuthorityOp.consults .uuid rfl rfl rfl

theorem decides_now : Task.Uses (S := services τ) decisionCalls (now (τ := τ)) :=
  consults_now.mono consultCalls_decision

theorem uses_now : Task.Uses (S := services τ) authorityCalls (now (τ := τ)) :=
  decides_now.mono decisionCalls_subset

theorem decides_randomUUID : Task.Uses (S := services τ) decisionCalls (randomUUID (τ := τ)) :=
  consults_randomUUID.mono consultCalls_decision

theorem uses_randomUUID : Task.Uses (S := services τ) authorityCalls (randomUUID (τ := τ)) :=
  decides_randomUUID.mono decisionCalls_subset

theorem decides_mintVerifiedPrincipal (claims : PrincipalClaims) (by_ : PrincipalVerification) :
    Task.Uses (S := services τ) decisionCalls (mintVerifiedPrincipal (τ := τ) claims by_) := by
  unfold mintVerifiedPrincipal
  split
  · trivial
  · exact AuthorityOp.decides rfl

theorem uses_mintVerifiedPrincipal (claims : PrincipalClaims) (by_ : PrincipalVerification) :
    Task.Uses (S := services τ) authorityCalls (mintVerifiedPrincipal (τ := τ) claims by_) :=
  (decides_mintVerifiedPrincipal claims by_).mono decisionCalls_subset

theorem consults_requireVerifiedPrincipal (value : PrincipalInput) :
    Task.Uses (S := services τ) consultCalls (requireVerifiedPrincipal (τ := τ) value) := by
  unfold requireVerifiedPrincipal
  split
  · refine Task.Uses.bind (AuthorityOp.consults _ rfl rfl rfl) fun verified => ?_
    split <;> trivial
  · trivial

theorem uses_requireVerifiedPrincipal (value : PrincipalInput) :
    Task.Uses (S := services τ) authorityCalls (requireVerifiedPrincipal (τ := τ) value) :=
  (consults_requireVerifiedPrincipal value).mono (consultCalls_gateway.trans gatewayCalls_subset)

theorem consults_enforceCredential (principal : VerifiedPrincipal) (capability : String)
    (resource : ServiceResource) :
    Task.Uses (S := services τ) consultCalls
      (enforceCredential (τ := τ) principal capability resource) := by
  unfold enforceCredential
  refine Task.Uses.bind (AuthorityOp.consults _ rfl rfl rfl) fun bound => ?_
  split
  · refine Task.Uses.tryCatch (AuthorityOp.consults _ rfl rfl rfl) fun error => ?_
    split <;> trivial
  · split <;> trivial

namespace ServiceGateway

variable (gateway : ServiceGateway)

theorem decides_identify (claims : PrincipalClaims) :
    Task.Uses (S := services τ) decisionCalls (gateway.identify (τ := τ) claims) := by
  unfold identify
  split
  · trivial
  · exact decides_mintVerifiedPrincipal _ _

theorem uses_identify (claims : PrincipalClaims) :
    Task.Uses (S := services τ) authorityCalls (gateway.identify (τ := τ) claims) :=
  (gateway.decides_identify claims).mono decisionCalls_subset

theorem consults_requestIdOf (options : ExecuteOptions) :
    Task.Uses (S := services τ) consultCalls (requestIdOf (τ := τ) options) := by
  unfold requestIdOf
  split
  · trivial
  · exact consults_randomUUID

theorem decides_requestIdOf (options : ExecuteOptions) :
    Task.Uses (S := services τ) decisionCalls (requestIdOf (τ := τ) options) :=
  (consults_requestIdOf options).mono consultCalls_decision

theorem uses_requestIdOf (options : ExecuteOptions) :
    Task.Uses (S := services τ) authorityCalls (requestIdOf (τ := τ) options) :=
  (decides_requestIdOf options).mono decisionCalls_subset

theorem consults_decide (request : ServiceAuthorizationRequest τ) :
    Task.Uses (S := services τ) consultCalls (gateway.decide request) := by
  unfold decide
  split
  · trivial
  · refine Task.Uses.bind (AuthorityOp.consults _ rfl rfl rfl) fun race => ?_
    split
    · trivial
    · trivial
    · trivial
    · trivial
    · trivial
    · split <;> trivial

theorem consults_authorize [Timestamp τ] (name : String) (input : PrincipalInput)
    (resource : ServiceResource) (requestId : String) :
    Task.Uses (S := services τ) consultCalls
      (gateway.authorize (τ := τ) name input resource requestId) := by
  unfold authorize
  split
  · trivial
  · split
    · trivial
    · refine Task.Uses.bind (consults_requireVerifiedPrincipal _) fun principal => ?_
      refine Task.Uses.bind (Task.uses_settled _ _) fun _ => ?_
      refine Task.Uses.bind (consults_enforceCredential _ _ _) fun _ => ?_
      refine Task.Uses.bind consults_now fun timestamp => ?_
      refine Task.Uses.bind (gateway.consults_decide _) fun decision => ?_
      split
      · trivial
      · refine Task.Uses.bind consults_now fun decidedAt => ?_
        refine Task.Uses.bind consults_now fun issuedAt => ?_
        refine Task.Uses.bind (Task.uses_settled _ _) fun expiresAt => ?_
        exact AuthorityOp.consults _ rfl rfl rfl

theorem decides_authorize [Timestamp τ] (name : String) (input : PrincipalInput)
    (resource : ServiceResource) (requestId : String) :
    Task.Uses (S := services τ) decisionCalls
      (gateway.authorize (τ := τ) name input resource requestId) :=
  (gateway.consults_authorize name input resource requestId).mono consultCalls_decision

theorem uses_authorize [Timestamp τ] (name : String) (input : PrincipalInput)
    (resource : ServiceResource) (requestId : String) :
    Task.Uses (S := services τ) authorityCalls
      (gateway.authorize (τ := τ) name input resource requestId) :=
  (gateway.decides_authorize name input resource requestId).mono decisionCalls_subset

theorem gateway_completeEvidence (id : String) (updates : EvidenceCompletion τ) :
    Task.Uses (S := services τ) gatewayCalls (completeEvidence id updates) := by
  unfold completeEvidence
  refine Task.Uses.bind (Task.uses_settled _ _) fun _ => ?_
  refine Task.Uses.bind (AuthorityOp.gateway _ rfl) fun current => ?_
  split
  · trivial
  · exact AuthorityOp.gateway _ rfl

theorem uses_completeEvidence (id : String) (updates : EvidenceCompletion τ) :
    Task.Uses (S := services τ) authorityCalls (completeEvidence id updates) :=
  (gateway_completeEvidence id updates).mono gatewayCalls_subset

/-- What follows an effect: the references it resolved, the time, and whatever is
made of the completion of its row. -/
theorem gateway_completion {calls : Set (AppOp τ)} (hgateway : gatewayCalls ⊆ calls) (id : String)
    (updates : List String → τ → EvidenceCompletion τ) {f : Svc τ Unit → Svc τ α}
    (hf : ∀ u, Task.Uses (S := services τ) calls (f (completeEvidence id u))) :
    Task.Uses (S := services τ) calls (do
      let refs : List String ← (AuthorityOp.resolvedRefs id).perform
      let completedAt ← now
      f (completeEvidence id (updates refs completedAt))) :=
  Task.Uses.bind ((AuthorityOp.gateway _ rfl).mono hgateway) fun _ =>
    Task.Uses.bind (consults_now.mono (consultCalls_gateway.trans hgateway)) fun _ => hf _

theorem uses_completion (id : String) (updates : List String → τ → EvidenceCompletion τ)
    {f : Svc τ Unit → Svc τ α}
    (hf : ∀ u, Task.Uses (S := services τ) authorityCalls (f (completeEvidence id u))) :
    Task.Uses (S := services τ) authorityCalls (do
      let refs : List String ← (AuthorityOp.resolvedRefs id).perform
      let completedAt ← now
      f (completeEvidence id (updates refs completedAt))) :=
  gateway_completion gatewayCalls_subset id updates hf

theorem gateway_recordRefusal (name : String) (input : PrincipalInput) (resource : ServiceResource)
    (options : ExecuteOptions) (requestId : String) (startedAt : τ) (error : JsError) :
    Task.Uses (S := services τ) gatewayCalls
      (gateway.recordRefusal name input resource options requestId startedAt error) := by
  unfold recordRefusal
  split
  · split
    · trivial
    · refine Task.Uses.bind (consults_randomUUID.mono consultCalls_gateway) fun id => ?_
      refine Task.Uses.bind (consults_now.mono consultCalls_gateway) fun completedAt => ?_
      exact (Task.uses_perform (AuthorityOp.mem_gatewayCalls _ rfl)).ignore
  · trivial

theorem uses_recordRefusal (name : String) (input : PrincipalInput) (resource : ServiceResource)
    (options : ExecuteOptions) (requestId : String) (startedAt : τ) (error : JsError) :
    Task.Uses (S := services τ) authorityCalls
      (gateway.recordRefusal name input resource options requestId startedAt error) :=
  (gateway.gateway_recordRefusal name input resource options requestId startedAt error).mono
    gatewayCalls_subset

theorem gateway_attest (durable : DurablePrincipal) (capabilities : List String) :
    Task.Uses (S := services τ) gatewayCalls (gateway.attest (τ := τ) durable capabilities) := by
  unfold attest
  split
  · trivial
  · refine Task.Uses.bind (AuthorityOp.gateway _ rfl) fun rows => ?_
    split <;> trivial

theorem uses_attest (durable : DurablePrincipal) (capabilities : List String) :
    Task.Uses (S := services τ) authorityCalls (gateway.attest (τ := τ) durable capabilities) :=
  (gateway.gateway_attest durable capabilities).mono gatewayCalls_subset

section execute

variable [Timestamp τ] {calls : Set (AppOp τ)}

/-- What an effect makes besides the gateway's calls, its execution makes. -/
theorem gateway_run (hgateway : gatewayCalls ⊆ calls) (context : ServiceExecutionContext τ)
    (options : ExecuteOptions) (startedAt : τ)
    {effect : ServiceExecutionContext τ → EffectTools τ → Svc τ α}
    (heffect : ∀ context tools, Task.Uses (S := services τ) calls (effect context tools)) :
    Task.Uses (S := services τ) calls (run context options effect startedAt) := by
  unfold run perform
  have hgate : ∀ {β : Type} {t : Svc τ β}, Task.Uses (S := services τ) gatewayCalls t →
      Task.Uses (S := services τ) calls t := fun ht => ht.mono hgateway
  refine Task.Uses.bind (hgate (consults_now.mono consultCalls_gateway)) fun at_ => ?_
  refine Task.Uses.bind (hgate (AuthorityOp.gateway _ rfl)) fun issued => ?_
  refine Task.Uses.bind (Task.uses_settled _ _) fun context' => ?_
  refine Task.Uses.bind (hgate (consults_randomUUID.mono consultCalls_gateway)) fun evidenceId => ?_
  refine Task.Uses.bind (hgate (AuthorityOp.gateway _ rfl)) fun _ => ?_
  refine Task.Uses.tryCatch (Task.Uses.bind (heffect _ _) fun result => ?_) fun error => ?_
  · refine gateway_completion hgateway evidenceId _ (f := fun t => t.bind fun _ => pure result)
      fun u => ?_
    exact (hgate (gateway_completeEvidence _ _)).bind fun _ => trivial
  · refine gateway_completion hgateway evidenceId _
      (f := fun t => t.ignore.bind fun _ => throw error) fun u => ?_
    exact (hgate (gateway_completeEvidence _ _)).ignore.bind fun _ => trivial

theorem gateway_execute (hgateway : gatewayCalls ⊆ calls) (name : String) (input : PrincipalInput)
    (resource : ServiceResource) (options : ExecuteOptions)
    {effect : ServiceExecutionContext τ → EffectTools τ → Svc τ α}
    (heffect : ∀ context tools, Task.Uses (S := services τ) calls (effect context tools)) :
    Task.Uses (S := services τ) calls (gateway.execute name input resource options effect) := by
  unfold execute
  have hconsult : ∀ {β : Type} {t : Svc τ β}, Task.Uses (S := services τ) consultCalls t →
      Task.Uses (S := services τ) calls t :=
    fun ht => ht.mono (consultCalls_gateway.trans hgateway)
  refine Task.Uses.bind (hconsult (consults_requestIdOf _)) fun requestId => ?_
  refine Task.Uses.bind (hconsult consults_now) fun startedAt => ?_
  refine Task.Uses.bind ?_ fun context => gateway_run hgateway _ _ _ heffect
  refine Task.Uses.tryCatch (hconsult (gateway.consults_authorize _ _ _ _)) fun error => ?_
  exact Task.Uses.bind ((gateway.gateway_recordRefusal _ _ _ _ _ _ _).mono hgateway)
    fun _ => trivial

theorem gateway_withCredential (hgateway : gatewayCalls ⊆ calls)
    (hcustody : ∀ request, .host (.withSecret request) ∈ calls) (tools : EffectTools τ)
    (ref purpose : String) {use : JsValue → Svc τ α}
    (huse : ∀ value, Task.Uses (S := services τ) calls (use value)) :
    Task.Uses (S := services τ) calls (gateway.withCredential tools ref purpose use) := by
  unfold withCredential
  have hgate : ∀ {β : Type} {t : Svc τ β}, Task.Uses (S := services τ) gatewayCalls t →
      Task.Uses (S := services τ) calls t := fun ht => ht.mono hgateway
  refine Task.Uses.bind (hgate (AuthorityOp.gateway _ rfl)) fun _ => ?_
  refine Task.Uses.bind (hgate (consults_now.mono consultCalls_gateway)) fun at_ => ?_
  refine Task.Uses.bind (hgate (AuthorityOp.gateway _ rfl)) fun issued => ?_
  refine Task.Uses.bind (Task.uses_settled _ _) fun context => ?_
  split
  · trivial
  split
  · trivial
  refine Task.Uses.bind (Task.uses_perform (hcustody _)) fun answer => ?_
  split
  · exact huse _
  all_goals trivial

theorem uses_execute (hauthority : authorityCalls ⊆ calls) (name : String) (input : PrincipalInput)
    (resource : ServiceResource) (options : ExecuteOptions)
    {effect : ServiceExecutionContext τ → EffectTools τ → Svc τ α}
    (heffect : ∀ context tools, Task.Uses (S := services τ) calls (effect context tools)) :
    Task.Uses (S := services τ) calls (gateway.execute name input resource options effect) :=
  gateway.gateway_execute (gatewayCalls_subset.trans hauthority) name input resource options heffect

theorem uses_withCredential (hauthority : authorityCalls ⊆ calls)
    (hcustody : ∀ request, .host (.withSecret request) ∈ calls) (tools : EffectTools τ)
    (ref purpose : String) {use : JsValue → Svc τ α}
    (huse : ∀ value, Task.Uses (S := services τ) calls (use value)) :
    Task.Uses (S := services τ) calls (gateway.withCredential tools ref purpose use) :=
  gateway.gateway_withCredential (gatewayCalls_subset.trans hauthority) hcustody tools ref purpose huse

end execute

end ServiceGateway

end AppPort
