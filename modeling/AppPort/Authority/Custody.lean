import AppPort.Authority.Gateway

/-!
# Custody — the credential tools of an effect

`withCredential` stands with the gateway. Here are `storeCredential` and
`credentialStatus`, which reach the host's custody, and the effects that are written with
the three: programs that ask for credentials one after the other, look at every answer,
an error included, and go on from it.

The version of a stored value, which a completed row also names, is left out.
-/

namespace AppPort

open Effects

variable {τ : Type}

/-- `value === true`. -/
def JsValue.isTrue : JsValue → Bool
  | .bool b => b
  | _ => false

/-- What a call of custody is for (`CredentialCustodyOptions`). -/
structure CredentialCustodyOptions where
  purpose : String
  provider : Option String := none
  kind : Option String := none
  deriving DecidableEq, Repr

/-- The options of the tool `credentialStatus`. -/
structure CredentialStatusOptions where
  purpose : Option String := none
  provider : Option String := none
  deriving DecidableEq, Repr

structure SecretCustodyWriteResult where
  version : Int
  storedAt : String
  deriving DecidableEq, Repr

structure SecretCustodyStatus where
  state : String
  version : Option Int := none
  updatedAt : Option String := none
  location : Option String := none
  writable : Bool
  deriving DecidableEq, Repr

/-- `safeCode`: a short snake_case word. -/
def safeCode (value : String) : Bool :=
  match value.toList with
  | c :: rest => c.isLower && rest.length ≤ 63 &&
      rest.all (fun d => d.isLower || d.isDigit || d == '_')
  | [] => false

/-- `readOnly`. -/
def readOnly (capability : String) (location : Option String := none) (noCustody : Bool := false) :
    JsError :=
  let message :=
    if noCustody then
      "No credential custody is configured on this host, so a value cannot be stored here. Configure a SecretCustody (createServices(\x7b credentials \x7d)), or store the credential where the host keeps credentials and attach its credential-ref."
    else
      match keepPresent location with
      | some location => "This environment's credential comes from the host (" ++ location ++
          ") and cannot be changed here; set it there."
      | none => "This host's credential custody is read-only: it resolves credentials but cannot store them. Store the value where the host keeps credentials (for example its secret manager or environment), or give createServices a SecretCustody."
  serviceError .custodyReadOnly message {
    capability := some capability
    reason := some (if noCustody then "custody_unconfigured" else "custody_read_only") }

/-- `safeStatus`: only the documented fields leave custody. -/
def safeStatus (status : JsValue) : Except JsError SecretCustodyStatus :=
  match status.prop "state" with
  | .str state =>
    if state = "set" ∨ state = "missing" ∨ state = "revoked" then
      .ok {
        state := state
        version := match status.prop "version" with | .num n => some n | _ => none
        updatedAt := (status.prop "updatedAt").text?
        location := (status.prop "location").text?
        writable := (status.prop "writable").isTrue }
    else .error (serviceError .authorityUnavailable "Credential custody returned an invalid status"
      { reason := some "invalid_status" })
  | _ => .error (serviceError .authorityUnavailable "Credential custody returned an invalid status"
      { reason := some "invalid_status" })

/-- What custody stored, when it says so (`Number.isInteger(version)` and so on). -/
def storedResult (capability : String) (result : JsValue) :
    Except JsError SecretCustodyWriteResult :=
  match result.prop "version", result.prop "storedAt" with
  | .num version, .str storedAt =>
    if version < 1 then .error (serviceError .authorityUnavailable
      "Credential custody returned an invalid store result"
      { capability := some capability, reason := some "invalid_store_result" })
    else .ok { version, storedAt }
  | _, _ => .error (serviceError .authorityUnavailable
      "Credential custody returned an invalid store result"
      { capability := some capability, reason := some "invalid_store_result" })

namespace ServiceGateway

variable (gateway : ServiceGateway)

/-- `custody`: the resolver, when it can store and report status. -/
def custody : Bool := gateway.credentials && gateway.storesCredentials

/-- `mapCredentialFailure(error, capability, true)`: also an error of the services' own is
rebuilt from its code, because its message could contain the value. -/
def mapCustodyFailure (error : JsError) (capability : String) : JsError :=
  match error with
  | .authority e =>
    if e.code = .custodyReadOnly then readOnly capability
    else serviceError e.code ("Credential custody refused the request (" ++ e.code.text ++ ")")
      { capability := some capability, reason := e.details.reason.filter safeCode }
  | .conflict _ | .validation _ | .other _ => mapCredentialFailure none capability

/-- How a custody call settled, its failures mapped. -/
def custodyAnswer (answer : SecretAnswer) (capability : String) : Except JsError JsValue :=
  match answer with
  | .resolved value => .ok value
  | .refused code => .error (mapCredentialFailure (code.filter safeCode) capability)
  | .failed e => .error (mapCustodyFailure e capability)

/-- `custodyContext`: the context is live, and this is the credential it is for. -/
def custodyContext [Timestamp τ] (contextInput : ServiceExecutionContext τ) (ref : String) :
    Svc τ (ServiceExecutionContext τ) := do
  let at_ ← now
  let issued : Bool ← (AuthorityOp.isIssued contextInput).perform
  let context ← check (assertExecutionContext contextInput issued contextInput.capability none at_)
  if context.resource.attribute "credentialRef" ≠ some ref then
    throw (serviceError .denied "Credential reference was not part of the authorized resource"
      { capability := some context.capability
        decisionId := some context.authorization.decisionId
        reason := some "credential_not_authorized" })
  else pure context

/-- What a custody call asks for: `custodyReference` and the access context. -/
def custodyRequest (context : ServiceExecutionContext τ) (ref : String)
    (options : CredentialCustodyOptions) : SecretRequest where
  credentialRef := ref
  tenantId := context.tenantId
  provider := keepPresent options.provider
  principalId := context.principal.principalId
  purpose := options.purpose
  authorizationRef := context.authorization.decisionId
  kind := keepPresent options.kind

/-- `tools.storeCredential`. -/
def storeCredential [Timestamp τ] (tools : EffectTools τ) (ref value : String)
    (options : CredentialCustodyOptions) : Svc τ SecretCustodyWriteResult := do
  (AuthorityOp.pushRef tools.run ref).perform
  let context ← custodyContext tools.context ref
  if gateway.custody = false then
    throw (readOnly context.capability none (!gateway.credentials))
  else
    let request := custodyRequest context ref options
    let answer : SecretAnswer ← (HostOp.custodyStatus request).perform
    let status ← check (custodyAnswer answer context.capability)
    if (status.prop "writable").isTrue = false then
      throw (readOnly context.capability (status.prop "location").text?)
    else
      let answer : SecretAnswer ← (HostOp.custodyStore request value).perform
      let result ← check (custodyAnswer answer context.capability)
      check (storedResult context.capability result)

/-- `tools.credentialStatus`. -/
def credentialStatus [Timestamp τ] (tools : EffectTools τ) (ref : String)
    (options : CredentialStatusOptions) : Svc τ SecretCustodyStatus := do
  (AuthorityOp.pushRef tools.run ref).perform
  let context ← custodyContext tools.context ref
  if gateway.custody = false then
    throw (readOnly context.capability none (!gateway.credentials))
  else
    let answer : SecretAnswer ← (HostOp.custodyStatus (custodyRequest context ref
      { purpose := options.purpose.getD tools.context.capability
        provider := options.provider })).perform
    check ((custodyAnswer answer context.capability).bind fun status =>
      (safeStatus status).mapError fun e => mapCustodyFailure e context.capability)

end ServiceGateway

/-! ## Effects -/

/-- An effect, as far as it asks for credentials: it settles, or it calls a tool (or
awaits something of the host's own) and goes on from however that settles. -/
inductive EffectProgram where
  | settled (r : Except JsError JsValue)
  | withCredential (ref purpose : String) (use : JsValue → EffectProgram)
      (k : Except JsError JsValue → EffectProgram)
  | storeCredential (ref value : String) (options : CredentialCustodyOptions)
      (k : Except JsError SecretCustodyWriteResult → EffectProgram)
  | credentialStatus (ref : String) (options : CredentialStatusOptions)
      (k : Except JsError SecretCustodyStatus → EffectProgram)
  | elsewhere (k : Except JsError JsValue → EffectProgram)

namespace EffectProgram

/-- The program, run with the tools of its effect. -/
def perform [Timestamp τ] (gateway : ServiceGateway) (tools : EffectTools τ) :
    EffectProgram → Svc τ JsValue
  | .settled r => check r
  | .withCredential ref purpose use k =>
    Task.settleWith (gateway.withCredential tools ref purpose fun value =>
      (use value).perform gateway tools) fun r => (k r).perform gateway tools
  | .storeCredential ref value options k =>
    Task.settleWith (gateway.storeCredential tools ref value options) fun r =>
      (k r).perform gateway tools
  | .credentialStatus ref options k =>
    Task.settleWith (gateway.credentialStatus tools ref options) fun r =>
      (k r).perform gateway tools
  | .elsewhere k =>
    Task.settleWith (HostOp.awaitEffect tools.context).perform fun r => (k r).perform gateway tools

/-- The first reference the program asks for, where it asks for any, is as `p` says. -/
def AsksFirst (p : String → Prop) : EffectProgram → Prop
  | .settled _ => True
  | .withCredential ref _ _ _ | .storeCredential ref _ _ _ | .credentialStatus ref _ _ => p ref
  | .elsewhere k => ∀ r, (k r).AsksFirst p

end EffectProgram

end AppPort
