import AppPort.Authority.Basic

/-!
# Principals — who is calling

A verified principal is an object that an authentication path minted. The code
keeps the minted objects in a module-private `WeakSet`; an object literal with the
same fields is not a member. The model keeps object identity as `ref`: minting
draws a `ref` never used before, and the world (`Runtime/World.lean`) holds the
set of minted objects.

A principal says who calls. It never says what the caller may do.
-/

namespace AppPort

/-- How an identity was established. -/
inductive PrincipalVerification where
  | apiKey
  | host
  | job
  | delivery
  | integration
  deriving DecidableEq, Repr

/-- The source's spelling, as it is sent to the authorizer. -/
def PrincipalVerification.text : PrincipalVerification → String
  | .apiKey => "api_key"
  | .host => "host"
  | .job => "job"
  | .delivery => "delivery"
  | .integration => "integration"

/-- Identity claims of an authentication adapter, before branding. -/
structure PrincipalClaims where
  principalId : String
  principalType : String
  tenantId : String
  applicationId : Option String := none
  credentialId : Option String := none
  delegationId : Option String := none
  runId : Option String := none
  deriving DecidableEq, Repr

/-- An identity object. It is verified when the world's brand holds it. -/
structure VerifiedPrincipal extends PrincipalClaims where
  verifiedBy : PrincipalVerification
  /-- Object identity. -/
  ref : Nat
  deriving DecidableEq, Repr

/-- What `mintVerifiedPrincipal` refuses: an identity that lacks one of its three
required fields. The error names the first that is missing. -/
def missingClaim (claims : PrincipalClaims) : Option String :=
  if isBlank claims.principalId then some "principalId"
  else if isBlank claims.principalType then some "principalType"
  else if isBlank claims.tenantId then some "tenantId"
  else none

/-- The object `mintVerifiedPrincipal` freezes: empty optional fields are dropped. -/
def mintedPrincipal (claims : PrincipalClaims) (by_ : PrincipalVerification) (ref : Nat) :
    VerifiedPrincipal where
  principalId := claims.principalId
  principalType := claims.principalType
  tenantId := claims.tenantId
  applicationId := keepPresent claims.applicationId
  credentialId := keepPresent claims.credentialId
  delegationId := keepPresent claims.delegationId
  runId := keepPresent claims.runId
  verifiedBy := by_
  ref := ref

/-- What a caller may hand over where a principal is expected. -/
inductive PrincipalInput where
  /-- An object with principal fields; `hasScopes` is `'scopes' in value`. -/
  | object (p : VerifiedPrincipal) (hasScopes : Bool)
  | text (s : String)
  | missing
  deriving DecidableEq, Repr

/-- The object a caller passes on unchanged. -/
abbrev PrincipalInput.of (p : VerifiedPrincipal) : PrincipalInput := .object p false

/-- What `requireVerifiedPrincipal` throws for a value the brand does not hold. -/
def unverifiedError : PrincipalInput → JsError
  | .text _ =>
    migrationError "An actor string is not an identity. Pass the principal returned by authentication."
  | .object _ true =>
    migrationError ("Principals carrying scopes are no longer authority. Pass the principal " ++
      "returned by authentication; AuthBoundry authorizes each capability.")
  | _ => serviceError .unauthenticated "A verified principal is required for this service operation"

/-- The actor fields of `rejectCallerActor`, in its order. -/
def ACTOR_FIELDS : List String :=
  ["actor", "createdBy", "revokedBy", "disabledBy", "replayedBy", "principalId"]

/-- `rejectCallerActor`: actor fields are accepted only when they restate the
verified caller; `principal` and non-empty `scopes` never are. -/
def rejectCallerActor (input : JsValue) (principal : VerifiedPrincipal) : Except JsError Unit :=
  match input with
  | .obj _ => do
    ACTOR_FIELDS.forM fun field =>
      match input.prop field with
      | .undefined => pure ()
      | value =>
        if value.isText principal.principalId then pure ()
        else throw (migrationError
          ("Caller-supplied \"" ++ field ++ "\" cannot establish identity; the actor is the verified principal."))
    match input.prop "principal" with
    | .undefined => pure ()
    | _ => throw (migrationError "Caller-supplied \"principal\" cannot establish identity.")
    match input.prop "scopes" with
    | .undefined | .arr [] => pure ()
    | _ => throw (migrationError "Caller-supplied scopes do not grant authority.")
  | _ => pure ()

/-- `resolveTenant`: the caller's tenant; a different one in the input is denied. -/
def resolveTenant (supplied : Option String) (principal : VerifiedPrincipal) :
    Except JsError String :=
  if supplied = none ∨ supplied = some principal.tenantId then .ok principal.tenantId
  else .error (serviceError .denied "Cross-tenant service operation denied"
    { reason := some "tenant_mismatch" })

@[simp] theorem resolveTenant_eq_ok {supplied : Option String} {principal : VerifiedPrincipal}
    {tenant : String} :
    resolveTenant supplied principal = .ok tenant ↔
      tenant = principal.tenantId ∧ (supplied = none ∨ supplied = some tenant) := by
  unfold resolveTenant
  split
  · next h =>
    constructor
    · intro heq
      obtain rfl := (Except.ok.inj heq).symm
      exact ⟨rfl, h⟩
    · rintro ⟨rfl, -⟩
      rfl
  · next h =>
    constructor
    · intro heq
      cases heq
    · rintro ⟨rfl, h'⟩
      exact absurd h' h

/-- Durable identity an effect runs as, captured from an authorized context. -/
structure DurablePrincipal where
  principalId : String
  principalType : String
  tenantId : String
  applicationId : Option String := none
  delegationId : Option String := none
  credentialId : Option String := none
  /-- The decision that authorized creating the record. -/
  authorizedBy : Option String := none
  deriving DecidableEq, Repr

/-- `toDurablePrincipal`: the delegation defaults to the principal's own. -/
def toDurablePrincipal (principal : VerifiedPrincipal) (delegationId : Option String)
    (authorizedBy : Option String) : DurablePrincipal where
  principalId := principal.principalId
  principalType := principal.principalType
  tenantId := principal.tenantId
  applicationId := keepPresent principal.applicationId
  delegationId := keepPresent (delegationId <|> principal.delegationId)
  credentialId := keepPresent principal.credentialId
  authorizedBy := keepPresent authorizedBy

/-- The claims `{ ...durable, runId }` a run mints its principal from. -/
def DurablePrincipal.claims (durable : DurablePrincipal) (runId : String) : PrincipalClaims where
  principalId := durable.principalId
  principalType := durable.principalType
  tenantId := durable.tenantId
  applicationId := durable.applicationId
  credentialId := durable.credentialId
  delegationId := durable.delegationId
  runId := some runId

end AppPort
