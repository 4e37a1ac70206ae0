import AppPort.Authority.Principal
import AppPort.Lib.Table

/-!
# Authorized contexts and effect evidence

The resource an operation is about, the request the gateway sends to the
authorizer, the context it mints from an allow decision, and the durable evidence
rows of effects. A context exists only because `ServiceGateway.authorize` made
one; it is bound to one capability and expires.
-/

namespace AppPort

variable {τ : Type}

/-- What a capability is exercised on. -/
structure ServiceResource where
  type : String
  tenantId : String
  id : Option String := none
  attributes : List (String × String) := []
  deriving DecidableEq, Repr

/-- `resource.attributes?.name`. -/
def ServiceResource.attribute (r : ServiceResource) (name : String) : Option String :=
  r.attributes.lookup name

/-- The bytes `encodeURIComponent` leaves as they are. -/
def isUriUnreserved (c : Char) : Bool :=
  c.isAlphanum || "-_.!~*'()".toList.contains c

/-- An upper-case hexadecimal digit. -/
def hexDigit (n : Nat) : Char :=
  "0123456789ABCDEF".toList.getD n '0'

/-- `encodeURIComponent` of one code point: its UTF-8 bytes, percent-encoded. -/
def encodeURIChar (c : Char) : List Char :=
  if isUriUnreserved c then [c]
  else (String.utf8EncodeChar c).flatMap fun b =>
    ['%', hexDigit (b.toNat / 16), hexDigit (b.toNat % 16)]

/-- `encodeURIComponent`. -/
def encodeURIComponent (s : String) : String :=
  String.ofList (s.toList.flatMap encodeURIChar)

/-- `resourceUri`: the collection of a type is the id `*`. -/
def resourceUri (application : String) (resource : ServiceResource) : String :=
  "appport://" ++ encodeURIComponent application ++ "/tenants/" ++
    encodeURIComponent resource.tenantId ++ "/" ++ encodeURIComponent resource.type ++ "/" ++
    encodeURIComponent (resource.id.getD "*")

/-- What the authorizer is asked. -/
structure ServiceAuthorizationRequest (τ : Type) where
  request_id : String
  subjectKind : String
  subjectId : String
  tenant_id : String
  application_id : String
  capability : String
  capability_version : Nat
  resourceUri : String
  resourceAttributes : List (String × String)
  timestamp : τ
  verified_by : String
  delegation_id : Option String
  run_id : Option String
  credential_id : Option String
  deriving DecidableEq, Repr

/-- The allow decision a context was minted from. -/
structure AuthorizationEvidence (τ : Type) where
  decisionId : String
  decidedAt : τ
  policyVersion : Option String
  reason : Option String
  deriving DecidableEq, Repr

/-- Authoritative context for one protected operation. -/
structure ServiceExecutionContext (τ : Type) where
  application : String
  tenantId : String
  principal : VerifiedPrincipal
  capability : String
  capabilityVersion : Nat
  requestId : String
  resource : ServiceResource
  resourceUri : String
  authorization : AuthorizationEvidence τ
  expiresAt : τ
  /-- Object identity: the gateway's `WeakSet`s hold contexts, not their fields. -/
  ref : Nat := 0
  deriving DecidableEq, Repr

/-- `assertExecutionContext`: the context was issued by the gateway, is for the
capability (and tenant, when one is asked for) and has not expired. -/
def assertExecutionContext [Timestamp τ] (context : ServiceExecutionContext τ) (issued : Bool)
    (capability : String) (tenantId : Option String) (now : τ) :
    Except JsError (ServiceExecutionContext τ) :=
  if issued = false then
    .error (serviceError .unauthenticated "A gateway-issued execution context is required"
      { capability := some capability })
  else if context.capability ≠ capability then
    .error (serviceError .denied
      ("Execution context was authorized for " ++ context.capability ++ ", not " ++ capability)
      { capability := some capability })
  else if tenantId.any (fun t => context.tenantId != t) then
    .error (serviceError .denied "Cross-tenant service operation denied"
      { capability := some capability, reason := some "tenant_mismatch" })
  else if Timestamp.getTime context.expiresAt ≤ Timestamp.getTime now then
    .error (serviceError .denied "Execution context has expired"
      { capability := some capability, decisionId := some context.authorization.decisionId })
  else .ok context

/-- The asserted context is the one handed in. -/
theorem assertExecutionContext_ok [Timestamp τ] {context context' : ServiceExecutionContext τ}
    {issued : Bool} {capability : String} {tenantId : Option String} {now : τ}
    (h : assertExecutionContext context issued capability tenantId now = .ok context') :
    context' = context ∧ issued = true ∧ context.capability = capability ∧
      Timestamp.getTime now < Timestamp.getTime context.expiresAt := by
  unfold assertExecutionContext at h
  split at h
  · cases h
  · next hissued =>
    split at h
    · cases h
    · next hcap =>
      split at h
      · cases h
      · split at h
        · cases h
        · next hexpired =>
          exact ⟨(Except.ok.inj h).symm, Bool.not_eq_false _ ▸ hissued, not_not.mp hcap,
            Int.lt_of_not_ge hexpired⟩

/-! ## Evidence -/

/-- How far an effect got. -/
inductive EffectOutcome where
  | started
  | succeeded
  | failed
  | providerError
  | denied
  deriving DecidableEq, Repr

/-- The decision an evidence row records. -/
inductive EvidenceDecision where
  | allow
  | deny
  | none
  deriving DecidableEq, Repr

/-- Durable record of one consequential effect, or of its denial. -/
structure EffectEvidence (τ : Type) where
  id : String
  application : String
  tenantId : String
  principalId : String
  principalType : String
  delegationId : Option String
  runId : Option String
  capability : String
  capabilityVersion : Nat
  resource : String
  decision : EvidenceDecision
  decisionId : Option String
  credentialRef : Option String
  service : String
  provider : Option String
  requestId : String
  startedAt : τ
  completedAt : Option τ
  outcome : EffectOutcome
  failureCode : Option String
  deriving DecidableEq, Repr

/-- What `EffectEvidenceStore.complete` writes into a row. -/
structure EvidenceCompletion (τ : Type) where
  outcome : EffectOutcome
  completedAt : τ
  failureCode : Option String := none
  credentialRef : Option String := none
  deriving DecidableEq, Repr

/-- `{ ...current, ...updates }`. -/
def EffectEvidence.complete (row : EffectEvidence τ) (u : EvidenceCompletion τ) :
    EffectEvidence τ :=
  { row with
    outcome := u.outcome
    completedAt := some u.completedAt
    failureCode := u.failureCode <|> row.failureCode
    credentialRef := u.credentialRef <|> row.credentialRef }

/-- Lower case of an ASCII letter. -/
def lowerAscii (c : Char) : Char := if 'A' ≤ c ∧ c ≤ 'Z' then Char.ofNat (c.toNat + 32) else c

/-- The rest of `s` after `pre`, letters compared without case. -/
def afterPrefixCI : List Char → List Char → Option (List Char)
  | [], s => some s
  | p :: pre, c :: s => if lowerAscii c == p then afterPrefixCI pre s else none
  | _ :: _, [] => none

/-- `app_live_`, six hexadecimal digits and `_` at the start of `s`. -/
def startsLikeApiKey (s : List Char) : Bool :=
  match afterPrefixCI "app_live_".toList s with
  | some rest =>
    (rest.take 6).length == 6 &&
      (rest.take 6).all (fun c => "0123456789abcdef".toList.contains (lowerAscii c)) &&
      (rest.drop 6).head? == some '_'
  | none => false

/-- The regular expression `SECRET_VALUE`: API keys, bearer tokens, PEM blocks. -/
def matchesSecretValue (value : String) : Bool :=
  let s := value.toList
  s.tails.any (fun t => startsLikeApiKey t || (afterPrefixCI "-----begin".toList t).isSome) ||
    (match afterPrefixCI "bearer".toList s with
      | some (c :: _) => isJsWhitespace c
      | _ => false)

/-- The text values of a row that `assertEvidenceHasNoSecrets` looks at; timestamps
cannot match. -/
def EffectEvidence.texts (e : EffectEvidence τ) : List String :=
  [e.id, e.application, e.tenantId, e.principalId, e.principalType] ++ e.delegationId.toList ++
    e.runId.toList ++ [e.capability, e.resource] ++ e.decisionId.toList ++ [e.service] ++
    e.provider.toList ++ [e.requestId] ++ e.failureCode.toList ++ e.credentialRef.toList

/-- `assertEvidenceHasNoSecrets`, as a test: no text looks like credential
material, and a credential is referenced by its `credential-ref:` only. -/
def EffectEvidence.hasNoSecrets (e : EffectEvidence τ) : Bool :=
  e.texts.all (fun t => !matchesSecretValue t) &&
    (match e.credentialRef with
      | some ref => hasPrefix ref "credential-ref:"
      | none => true)

/-- `assertEvidenceHasNoSecrets` of a completion, field by field. -/
def EvidenceCompletion.assertHasNoSecrets (u : EvidenceCompletion τ) : Except JsError Unit :=
  if u.failureCode.any matchesSecretValue then
    .error (.other "Evidence field \"failureCode\" contains credential material")
  else if u.credentialRef.any matchesSecretValue then
    .error (.other "Evidence field \"credentialRef\" contains credential material")
  else if u.credentialRef.any (fun ref => !hasPrefix ref "credential-ref:") then
    .error (.other "Evidence may reference credentials only by credential-ref")
  else .ok ()

/-- A completion that is refused is refused with an error that is not a service's. -/
theorem EvidenceCompletion.assertHasNoSecrets_error {u : EvidenceCompletion τ} {e : JsError}
    (h : u.assertHasNoSecrets = .error e) : e.code? = none := by
  unfold assertHasNoSecrets at h
  split at h
  · cases h
    rfl
  split at h
  · cases h
    rfl
  split at h
  · cases h
    rfl
  · cases h

end AppPort
