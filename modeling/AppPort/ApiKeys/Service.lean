import AppPort.Authority.Gateway
import AppPort.Authority.Json
import AppPort.Lib.Base64url

/-!
# The API-key service

`ApiKeyService` with the methods of `FeltDbApiKeyStore` it goes through: creating,
updating, rotating and revoking keys, and authenticating with one.

The two queues of a service object, `creationQueue` and `authenticationQueue`, only
order what one object does, and the pauses between attempts only pass time; the model
leaves both out, and has the more interleavings. Hashes and collation are the runtime's
own (`KeyRuntime`); nothing is assumed of them.
-/

namespace AppPort

open Effects

variable {τ : Type}

def API_KEY_SCHEME : String := "app_live"

def SECRET_BYTES : Nat := 32

def SALT_BYTES : Nat := 16

def MAX_CREATE_ATTEMPTS : Nat := 5

def MAX_UPDATE_ATTEMPTS : Nat := 10

def MAX_OVERLAP_SECONDS : Nat := 7 * 24 * 60 * 60

/-- What the key service uses of `node:crypto` and `Intl`. -/
structure KeyRuntime where
  /-- `createHmac('sha256', key).update(secret).digest()`. -/
  hmac : (key secret : List UInt8) → List UInt8
  /-- `scryptSync(input, salt, keylen)`. -/
  scrypt : (input salt : List UInt8) → (keylen : Nat) → SizedBytes keylen
  /-- `a.localeCompare(b)`. -/
  localeCompare : String → String → Ordering

/-! ## Secrets -/

/-- `[0-9a-f]`. -/
def isLowerHex (c : Char) : Bool := c.isDigit || ('a' ≤ c && c ≤ 'f')

/-- What `.` matches in a regular expression. -/
def notLineBreak (c : Char) : Bool :=
  c != '\n' && c != '\r' && c.toNat != 0x2028 && c.toNat != 0x2029

/-- `parseApiKeyPrefix`. -/
def parseApiKeyPrefix (secret : String) : Option String :=
  let scheme := (API_KEY_SCHEME ++ "_").toList
  let chars := secret.toList
  let hex := (chars.drop scheme.length).take 6
  match chars.drop (scheme.length + 6) with
  | '_' :: rest =>
    if scheme.isPrefixOf chars && hex.all isLowerHex && !rest.isEmpty && rest.all notLineBreak then
      some (String.ofList (scheme ++ hex))
    else none
  | _ => none

/-- `bytes.toString('hex')`. -/
def toHex (bytes : List UInt8) : String :=
  String.ofList (bytes.flatMap fun b => [lowerHexDigit (b.toNat / 16), lowerHexDigit (b.toNat % 16)])

/-- `verifierInput`. -/
def verifierInput (node : KeyRuntime) (secret : String) (verifierKey : List UInt8) : List UInt8 :=
  node.hmac verifierKey (utf8 secret)

/-- `hashSecret`, with the salt drawn. -/
def hashSecret (node : KeyRuntime) (secret : String) (salt : List UInt8)
    (verifierKey : Option (List UInt8)) : String :=
  match verifierKey with
  | some key => "hmac-scrypt$" ++ (Base64url.encode salt ++ ("$" ++
      Base64url.encode (node.scrypt (verifierInput node secret key) salt 32).val))
  | none => "scrypt$" ++ (Base64url.encode salt ++ ("$" ++
      Base64url.encode (node.scrypt (utf8 secret) salt 32).val))

inductive SecretVerification where
  | verified
  | refused
  | verifierUnavailable
  deriving DecidableEq, Repr

/-- The digest of an input under the stored salt is the stored digest. -/
def digestMatches (node : KeyRuntime) (input : List UInt8) (saltValue digestValue : String) :
    SecretVerification :=
  let salt := Base64url.decode saltValue
  let expected := Base64url.decode digestValue
  if (node.scrypt input salt expected.length).val = expected then .verified else .refused

/-- `verifySecret`. -/
def verifySecret (node : KeyRuntime) (secret encodedHash : String)
    (verifierKey : Option (List UInt8)) : SecretVerification :=
  match (encodedHash.toList.splitOn '$').map String.ofList with
  | algorithm :: saltValue :: digestValue :: _ =>
    if saltValue = "" ∨ digestValue = "" then .refused
    else if algorithm = "scrypt" then digestMatches node (utf8 secret) saltValue digestValue
    else if algorithm = "hmac-scrypt" then
      match verifierKey with
      | none => .verifierUnavailable
      | some key => digestMatches node (verifierInput node secret key) saltValue digestValue
    else .refused
  | _ => .refused

/-! ## The store -/

namespace FeltDbApiKeyStore

/-- Read the record, and send a whole one made from it under the expected version. -/
def overwrite (id : String) (expectedVersion : Nat)
    (write : ApiKey τ → ApiKey τ × List ApiKeyField) : Svc τ (Option (ApiKey τ)) := do
  let current : Option (ApiKey τ) ← (ApiKeyOp.getKey id).perform
  match current with
  | none => pure none
  | some current =>
    (ApiKeyOp.updateIfVersion id expectedVersion (write current).1 (write current).2).perform

/-- `replace`: a field that `next` lacks is sent as `null`. -/
def replace (id : String) (expectedVersion : Nat) (next : ApiKey τ) : Svc τ (Option (ApiKey τ)) :=
  overwrite id expectedVersion fun current => (next, clearedFields current next)

/-- `revoke`. -/
def revoke (id : String) (expectedVersion : Nat) (revokedAt : τ) (revokedBy : Option String) :
    Svc τ (Option (ApiKey τ)) :=
  overwrite id expectedVersion fun current =>
    ({ current with
        revokedAt := some revokedAt
        revokedBy := keepPresent revokedBy <|> current.revokedBy }, [])

/-- `recordLastUsed`. -/
def recordLastUsed (id : String) (expectedVersion : Nat) (lastUsedAt : τ) :
    Svc τ (Option (ApiKey τ)) :=
  overwrite id expectedVersion fun current => ({ current with lastUsedAt := some lastUsedAt }, [])

/-- `findByPrefix`. -/
def findByPrefix (keyPrefix : String) : Svc τ (Option (ApiKey τ)) := do
  let pointer : Option (ApiKeyPrefixRecord τ) ← (ApiKeyOp.getPrefix keyPrefix).perform
  match pointer with
  | none => pure none
  | some pointer => (ApiKeyOp.getKey pointer.apiKeyId).perform

end FeltDbApiKeyStore

/-! ## Inputs and answers -/

/-- A date as a caller hands it over. -/
inductive DateInput (τ : Type) where
  | undefined
  | null
  /-- A `Date` or a text; `none` where it is not a valid date. -/
  | date (value : Option τ)

structure CreateApiKeyInput (τ : Type) where
  tenantId : Option String := none
  name : JsValue
  scopes : List String := []
  restrictions : JsValue := .undefined
  expiresAt : DateInput τ := .undefined
  createdBy : JsValue := .undefined

structure UpdateApiKeyInput (τ : Type) where
  tenantId : Option String := none
  id : JsValue
  name : JsValue := .undefined
  restrictions : JsValue := .undefined
  expiresAt : DateInput τ := .undefined
  /-- The object the caller passed. -/
  raw : JsValue := .undefined

structure RotateApiKeyInput where
  tenantId : Option String := none
  id : JsValue
  overlapSeconds : JsValue := .undefined
  /-- The object the caller passed. -/
  raw : JsValue := .undefined

structure RevokeApiKeyInput where
  tenantId : Option String := none
  id : String
  revokedBy : JsValue := .undefined

structure RevokeAllApiKeysInput where
  tenantId : Option String := none
  createdBy : JsValue := .undefined
  revokedBy : JsValue := .undefined
  principal : JsValue := .undefined

/-- The safe read model: a key without its verifier and its storage metadata. -/
structure ApiKeyView (τ : Type) where
  id : String
  tenantId : String
  applicationId : Option String
  name : String
  keyPrefix : String
  /-- Always empty: scopes are no authority. -/
  scopes : List String := []
  restrictions : Option ApiKeyRestrictions
  status : ApiKeyStatus
  createdAt : τ
  expiresAt : Option τ
  revokedAt : Option τ
  revokedBy : Option String
  lastUsedAt : Option τ
  updatedAt : Option τ
  updatedBy : Option String
  rotatedFrom : Option String
  rotatedTo : Option String
  rotatedAt : Option τ
  createdBy : String
  deriving DecidableEq, Repr

structure CreatedApiKey where
  id : String
  name : String
  keyPrefix : String
  /-- Returned once, here. -/
  secret : String

structure RotatedApiKey (τ : Type) extends CreatedApiKey where
  /-- The key that was replaced. -/
  replaces : String
  replacedKeyValidUntil : τ

/-- What an issued key is made from. -/
structure IssueInput (τ : Type) where
  tenantId : String
  name : String
  restrictions : Option ApiKeyRestrictions := none
  expiresAt : Option τ := none
  createdBy : String
  rotatedFrom : Option String := none

/-- The changes an update asks for: `none` where nothing is said of a field, `some none`
where it is cleared. -/
structure ApiKeyChanges (τ : Type) where
  name : Option String := none
  restrictions : Option (Option ApiKeyRestrictions) := none
  expiresAt : Option (Option τ) := none

def invalidRequest (message : String) : JsError := serviceError .invalidRequest message

def ApiKeyScopesNotSupportedError : JsError :=
  migrationError ("API key scopes are no longer authority. Old: API key + scopes -> service " ++
    "authority. New: API key -> identity; AuthBoundry -> authorization. Create the key without " ++
    "scopes and grant capabilities in AuthBoundry.")

/-- `requiredId`. -/
def requiredId : JsValue → Except JsError String
  | .str s => if isBlank s then .error (invalidRequest "id is required") else .ok s
  | _ => .error (invalidRequest "id is required")

/-- A name that is there. -/
def requiredName : JsValue → Except JsError String
  | .str s => if isBlank s then .error (invalidRequest "name must be a non-empty string") else .ok s
  | _ => .error (invalidRequest "name must be a non-empty string")

/-- `isoDate(value, 'expiresAt')`. -/
def isoDate : DateInput τ → Except JsError τ
  | .date (some t) => .ok t
  | _ => .error (invalidRequest "expiresAt must be a valid date")

/-- The overlap of a rotation: none is `0`. -/
def overlapOf (value : JsValue) : Except JsError Nat :=
  let refusal : JsError := invalidRequest "overlapSeconds must be an integer from 0 to 604800"
  match value with
  | .undefined | .null => .ok 0
  | .num n => if 0 ≤ n ∧ n ≤ MAX_OVERLAP_SECONDS then .ok n.toNat else .error refusal
  | _ => .error refusal

namespace ApiKeyChanges

/-- The name an input asks for. -/
def nameOf : JsValue → Except JsError (Option String)
  | .undefined => .ok none
  | value => (requiredName value).map some

/-- The ceiling an input asks for: `null` removes it. -/
def restrictionsOf (localeCompare : String → String → Ordering) :
    JsValue → Except JsError (Option (Option ApiKeyRestrictions))
  | .undefined => .ok none
  | .null => .ok (some none)
  | value => (ApiKeyRestrictions.normalizeRestrictions localeCompare value).map fun r =>
      some (some r)

/-- The expiry an input asks for: `null` removes it. -/
def expiryOf : DateInput τ → Except JsError (Option (Option τ))
  | .undefined => .ok none
  | .null => .ok (some none)
  | value => (isoDate value).map fun t => some (some t)

/-- The changes an input asks for, of which there has to be one. -/
def ofInput (localeCompare : String → String → Ordering) (input : UpdateApiKeyInput τ) :
    Except JsError (ApiKeyChanges τ) := do
  let name ← nameOf input.name
  let restrictions ← restrictionsOf localeCompare input.restrictions
  let expiresAt ← expiryOf input.expiresAt
  if name.isNone && restrictions.isNone && expiresAt.isNone then
    throw (invalidRequest "Nothing to update: supply name, restrictions, or expiresAt")
  else pure { name, restrictions, expiresAt }

/-- `Object.keys(changes).sort()`. -/
def fields (changes : ApiKeyChanges τ) : List String :=
  (if changes.expiresAt.isSome then ["expiresAt"] else []) ++
    (if changes.name.isSome then ["name"] else []) ++
    (if changes.restrictions.isSome then ["restrictions"] else [])

/-- The ceiling of the key is at stake. -/
def touchesCeiling (changes : ApiKeyChanges τ) : Bool :=
  changes.restrictions.isSome || changes.expiresAt.isSome

/-- The record an update writes. -/
def applied (changes : ApiKeyChanges τ) (current : ApiKey τ) (updatedAt : τ) (updatedBy : String) :
    ApiKey τ :=
  { current with
    name := changes.name.getD current.name
    restrictions := changes.restrictions.getD current.restrictions
    expiresAt := changes.expiresAt.getD current.expiresAt
    updatedAt := some updatedAt
    updatedBy := some updatedBy }

end ApiKeyChanges

/-- `toView`. -/
def toView [Timestamp τ] (key : ApiKey τ) (now : τ) : ApiKeyView τ where
  id := key.id
  tenantId := key.tenantId
  applicationId := keepPresent key.applicationId
  name := key.name
  keyPrefix := key.keyPrefix
  restrictions := key.restrictions
  status := keyStatus key now
  createdAt := key.createdAt
  expiresAt := key.expiresAt
  revokedAt := key.revokedAt
  revokedBy := keepPresent key.revokedBy
  lastUsedAt := key.lastUsedAt
  updatedAt := key.updatedAt
  updatedBy := keepPresent key.updatedBy
  rotatedFrom := keepPresent key.rotatedFrom
  rotatedTo := keepPresent key.rotatedTo
  rotatedAt := key.rotatedAt
  createdBy := key.createdBy

/-! ## The service -/

/-- A service object and its options. -/
structure ApiKeyService where
  /-- The object, and with it its lookup hints. -/
  object : Nat := 0
  node : KeyRuntime
  applicationId : String
  authority : Option ServiceGateway
  verifierKey : Option (List UInt8) := none
  /-- `runtime?.deployment.mode === 'local'`. -/
  isLocal : Bool := false

namespace ApiKeyService

variable (service : ApiKeyService)

/-- `gateway()`. -/
def gateway : Except JsError ServiceGateway :=
  match service.authority with
  | some gateway => .ok gateway
  | none => .error (serviceError .authorityUnavailable
      "API key management has no AuthBoundry authority configured")

/-- A use of the object's lookup hints. -/
def memory (op : ApiKeyMemoryOp τ) : Svc τ (op.Out τ) :=
  (AuthorityOp.keyMemory service.object op).perform

/-- `rememberCreated`. -/
def rememberCreated (apiKey : ApiKey τ) : Svc τ Unit :=
  if service.isLocal then service.memory (.rememberCreated apiKey) else pure ()

/-- `audit`. -/
def audit (type : String) (apiKey : ApiKey τ) (principalId : String) (timestamp : τ)
    (changes : Option (List String) := none) (relatedCredentialId : Option String := none) :
    Svc τ Unit := do
  let id ← randomUUID
  (AuditOp.apiKey {
    id, type, credentialId := apiKey.id, tenantId := apiKey.tenantId, principalId, timestamp
    result := "success", changes, relatedCredentialId }).perform

/-- `recordAuthEvent`. -/
def recordAuthEvent (apiKey : ApiKey τ) (result : String) (timestamp : τ) : Svc τ Unit := do
  let id ← randomUUID
  (AuditOp.apiKey {
    id, type := "api_key.authenticated", credentialId := apiKey.id, tenantId := apiKey.tenantId
    principalId := apiKey.id, timestamp, result }).perform

/-- The record exists and is of this tenant and application. -/
def owns (apiKey : ApiKey τ) (tenantId : String) (allowLegacy : Bool) : Bool :=
  apiKey.tenantId == tenantId &&
    (apiKey.applicationId == some service.applicationId ||
      (allowLegacy && apiKey.applicationId.isNone))

/-- The record under an id, when this service owns it. -/
def ownKey (tenantId id : String) (allowLegacy : Bool := false) : Svc τ (Option (ApiKey τ)) := do
  let current : Option (ApiKey τ) ← (ApiKeyOp.getKey id).perform
  pure (current.filter fun apiKey => service.owns apiKey tenantId allowLegacy)

/-- `issue`: a key record and its secret; nothing is persisted. -/
def issue (input : IssueInput τ) : Svc τ (ApiKey τ × String) := do
  let head : SizedBytes 3 ← (AuthorityOp.randomBytes 3).perform
  let keyPrefix := API_KEY_SCHEME ++ "_" ++ toHex head.val
  let bytes : SizedBytes SECRET_BYTES ← (AuthorityOp.randomBytes SECRET_BYTES).perform
  let secret := keyPrefix ++ "_" ++ Base64url.encode bytes.val
  let id ← randomUUID
  let salt : SizedBytes SALT_BYTES ← (AuthorityOp.randomBytes SALT_BYTES).perform
  let createdAt ← now
  pure ({
    id, tenantId := input.tenantId, applicationId := some service.applicationId
    name := input.name, keyPrefix
    secretHash := hashSecret service.node secret salt.val service.verifierKey
    restrictions := input.restrictions, createdAt, expiresAt := input.expiresAt
    rotatedFrom := keepPresent input.rotatedFrom, createdBy := input.createdBy, version := 1 },
    secret)

section ceiling

variable [Timestamp τ]

/-- The ceiling of the caller's key covers the request. -/
def withinCaller (callerKey : ApiKey τ) (restrictions : Option ApiKeyRestrictions)
    (expiresAt : Option τ) : Except JsError Unit :=
  if restrictionsWithin restrictions callerKey.restrictions = false then
    .error (serviceError .denied
      "An API key cannot create, widen, or rotate a key broader than its own restrictions"
      { reason := some "exceeds_credential_restrictions" })
  else
    match callerKey.expiresAt, expiresAt with
    | none, _ => .ok ()
    | some limit, some t =>
      if limit < t then
        .error (serviceError .denied "An API key cannot create or extend a key that outlives it"
          { reason := some "exceeds_credential_lifetime" })
      else .ok ()
    | some _, none =>
      .error (serviceError .denied "An API key cannot create or extend a key that outlives it"
        { reason := some "exceeds_credential_lifetime" })

/-- `assertWithinCaller`. -/
def assertWithinCaller (principal : VerifiedPrincipal) (restrictions : Option ApiKeyRestrictions)
    (expiresAt : Option τ) : Svc τ Unit :=
  match principal.verifiedBy, keepPresent principal.credentialId with
  | .apiKey, some credentialId => do
    let callerKey : Option (ApiKey τ) ← (ApiKeyOp.getKey credentialId).perform
    match callerKey with
    | none => throw (serviceError .denied "Calling API key is unknown"
        { reason := some "credential_unknown" })
    | some callerKey => check (withinCaller callerKey restrictions expiresAt)
  | _, _ => pure ()

end ceiling

/-! ### Creating -/

/-- A key is stored, remembered and audited. -/
def storeCreated (apiKey : ApiKey τ) (secret createdBy : String) : Svc τ CreatedApiKey := do
  (ApiKeyOp.create apiKey).perform
  service.memory (.rememberPrefix apiKey.keyPrefix apiKey.id)
  service.rememberCreated apiKey
  audit "api_key.created" apiKey createdBy apiKey.createdAt
  pure { id := apiKey.id, name := apiKey.name, keyPrefix := apiKey.keyPrefix, secret }

/-- The loop of `createApiKeyWithSideEffects`. -/
def createUnique (input : IssueInput τ) : Nat → Svc τ CreatedApiKey
  | 0 => throw (.other "Unable to create a unique API key after repeated FeltDB conflicts.")
  | attempts + 1 => do
    let (apiKey, secret) ← service.issue input
    Task.tryCatch (service.storeCreated apiKey secret input.createdBy) fun error =>
      if error.isConflict then createUnique input attempts else throw error

variable [Timestamp τ]

/-- `createApiKey`. -/
def createApiKey (input : CreateApiKeyInput τ) (caller : PrincipalInput) : Svc τ CreatedApiKey :=
  if input.scopes ≠ [] then throw ApiKeyScopesNotSupportedError
  else do
    let principal ← requireVerifiedPrincipal caller
    check (rejectCallerActor (.obj [("createdBy", input.createdBy)]) principal)
    let tenantId ← check (resolveTenant input.tenantId principal)
    let restrictions ← check (match input.restrictions with
      | .undefined => pure none
      | value => (ApiKeyRestrictions.normalizeRestrictions service.node.localeCompare value).map some)
    let expiresAt ← check (match input.expiresAt with
      | .undefined => pure none
      | value => (isoDate value).map some)
    let gateway ← check service.gateway
    gateway.execute "apikeys.create" (.of principal) { type := "api_key", tenantId }
      { service := "api-keys" }
      fun _ _ => do
        assertWithinCaller principal restrictions expiresAt
        let name ← check (requiredName input.name)
        service.createUnique
          { tenantId, name, restrictions, expiresAt, createdBy := principal.principalId }
          MAX_CREATE_ATTEMPTS

/-! ### Updating -/

/-- An update that touches the ceiling of a key stays within the caller's. -/
def assertUpdateWithinCaller (principal : VerifiedPrincipal) (changes : ApiKeyChanges τ)
    (next : ApiKey τ) : Svc τ Unit :=
  if changes.touchesCeiling then assertWithinCaller principal next.restrictions next.expiresAt
  else pure ()

/-- `update`. -/
def update (tenantId id : String) (changes : ApiKeyChanges τ) (principal : VerifiedPrincipal) :
    Nat → Svc τ (Option (ApiKeyView τ))
  | 0 => throw (.other
      ("Unable to update API key " ++ id ++ " because concurrent FeltDB updates never settled."))
  | attempts + 1 => do
    let current ← service.ownKey tenantId id
    match current with
    | none => pure none
    | some current =>
      if current.revokedAt.isSome then throw (invalidRequest "A revoked API key cannot be updated")
      else do
        let updatedAt ← now
        let next := changes.applied current updatedAt principal.principalId
        assertUpdateWithinCaller principal changes next
        let result ← FeltDbApiKeyStore.replace current.id current.version next
        match result with
        | none => update tenantId id changes principal attempts
        | some result => do
          let updated := { next with version := result.version }
          service.memory (.rememberLocal updated)
          audit "api_key.updated" updated principal.principalId updatedAt (some changes.fields)
          let t ← now
          pure (some (toView updated t))

/-- `updateApiKey`. -/
def updateApiKey (input : UpdateApiKeyInput τ) (caller : PrincipalInput) :
    Svc τ (Option (ApiKeyView τ)) := do
  let principal ← requireVerifiedPrincipal caller
  check (rejectCallerActor input.raw principal)
  let tenantId ← check (resolveTenant input.tenantId principal)
  let id ← check (requiredId input.id)
  let changes ← check (ApiKeyChanges.ofInput service.node.localeCompare input)
  let gateway ← check service.gateway
  gateway.execute "apikeys.update" (.of principal) { type := "api_key", tenantId, id := some id }
    { service := "api-keys" }
    fun _ _ => service.update tenantId id changes principal MAX_UPDATE_ATTEMPTS

/-! ### Rotating -/

/-- When a key that is replaced with an overlap stops working. -/
def validUntil (current : ApiKey τ) (overlapEnd : τ) : τ :=
  match current.expiresAt with
  | some e => if e < overlapEnd then e else overlapEnd
  | none => overlapEnd

/-- The record of a replaced key. -/
def retire (current : ApiKey τ) (replacementId : String) (rotatedAt overlapEnd : τ)
    (overlapSeconds : Nat) (rotatedBy : String) : ApiKey τ :=
  let rotated := { current with rotatedTo := some replacementId, rotatedAt := some rotatedAt }
  if overlapSeconds = 0 then
    { rotated with revokedAt := some rotatedAt, revokedBy := some rotatedBy }
  else { rotated with expiresAt := some (validUntil current overlapEnd) }

omit [Timestamp τ] in
/-- What follows the transaction of a rotation. -/
def reportRotation (current retired replacement : ApiKey τ) (rotatedAt : τ) (overlapSeconds : Nat)
    (rotatedBy : String) : Svc τ Unit := do
  service.memory (.rememberPrefix replacement.keyPrefix replacement.id)
  service.rememberCreated replacement
  service.memory (.rememberLocal { retired with version := current.version + 1 })
  audit "api_key.created" replacement rotatedBy rotatedAt none (some current.id)
  audit "api_key.rotated" current rotatedBy rotatedAt none (some replacement.id)
  if overlapSeconds = 0 then audit "api_key.revoked" current rotatedBy rotatedAt else pure ()

/-- `rotate`. -/
def rotate (tenantId id : String) (overlapSeconds : Nat) (principal : VerifiedPrincipal) :
    Nat → Svc τ (Option (RotatedApiKey τ))
  | 0 => throw (.other
      ("Unable to rotate API key " ++ id ++ " because concurrent FeltDB updates never settled."))
  | attempts + 1 => do
    let current ← service.ownKey tenantId id
    match current with
    | none => pure none
    | some current => do
      let t ← now
      if present current.rotatedTo then
        throw (invalidRequest
          "This API key has already been rotated; rotate its replacement instead")
      else if keyStatus current t ≠ .active then
        throw (invalidRequest ("A " ++ (keyStatus current t).text ++ " API key cannot be rotated"))
      else do
        assertWithinCaller principal current.restrictions current.expiresAt
        let overlapEnd ← check (laterThan t (overlapSeconds * 1000))
        let (replacement, secret) ← service.issue {
          tenantId, name := current.name, restrictions := current.restrictions
          expiresAt := current.expiresAt, createdBy := principal.principalId
          rotatedFrom := some current.id }
        let retired := retire current replacement.id t overlapEnd overlapSeconds principal.principalId
        let outcome ← Task.attempt (ApiKeyOp.rotate current retired replacement).perform
        match outcome with
        | .error error =>
          if error.isConflict then rotate tenantId id overlapSeconds principal attempts
          else throw error
        | .ok _ => do
          service.reportRotation current retired replacement t overlapSeconds principal.principalId
          pure (some {
            id := replacement.id, name := replacement.name, keyPrefix := replacement.keyPrefix
            secret, replaces := current.id
            replacedKeyValidUntil :=
              if overlapSeconds = 0 then t else validUntil current overlapEnd })

/-- `rotateApiKey`. -/
def rotateApiKey (input : RotateApiKeyInput) (caller : PrincipalInput) :
    Svc τ (Option (RotatedApiKey τ)) := do
  let principal ← requireVerifiedPrincipal caller
  check (rejectCallerActor input.raw principal)
  let tenantId ← check (resolveTenant input.tenantId principal)
  let id ← check (requiredId input.id)
  let overlapSeconds ← check (overlapOf input.overlapSeconds)
  let gateway ← check service.gateway
  gateway.execute "apikeys.rotate" (.of principal) { type := "api_key", tenantId, id := some id }
    { service := "api-keys" }
    fun _ _ => service.rotate tenantId id overlapSeconds principal MAX_UPDATE_ATTEMPTS

/-! ### Revoking -/

/-- `revoke`. -/
def revoke (tenantId id revokedBy : String) : Nat → Svc τ (Option (ApiKeyView τ))
  | 0 => throw (.other
      ("Unable to revoke API key " ++ id ++ " because concurrent FeltDB updates never settled."))
  | attempts + 1 => do
    let current ← service.ownKey tenantId id true
    match current with
    | none => pure none
    | some current =>
      if current.revokedAt.isSome then do
        let t ← now
        pure (some (toView current t))
      else do
        let revokedAt ← now
        let result ← FeltDbApiKeyStore.revoke current.id current.version revokedAt (some revokedBy)
        match result with
        | none => revoke tenantId id revokedBy attempts
        | some result => do
          let updated := { current with
            revokedAt := some revokedAt, revokedBy := some revokedBy, version := result.version }
          audit "api_key.revoked" updated revokedBy revokedAt
          service.memory (.rememberLocal updated)
          let t ← now
          pure (some (toView updated t))

/-- `revokeApiKey`. -/
def revokeApiKey (input : RevokeApiKeyInput) (caller : PrincipalInput) :
    Svc τ (Option (ApiKeyView τ)) := do
  let principal ← requireVerifiedPrincipal caller
  check (rejectCallerActor (.obj [("revokedBy", input.revokedBy)]) principal)
  let tenantId ← check (resolveTenant input.tenantId principal)
  let gateway ← check service.gateway
  gateway.execute "apikeys.revoke" (.of principal)
    { type := "api_key", tenantId, id := some input.id } { service := "api-keys" }
    fun _ _ => service.revoke tenantId input.id principal.principalId MAX_UPDATE_ATTEMPTS

/-- The order in which keys are revoked. -/
def revokedBefore (a b : ApiKey τ) : Bool :=
  ((service.node.localeCompare (Timestamp.text a.createdAt) (Timestamp.text b.createdAt)).then
    (service.node.localeCompare a.id b.id)) != .gt

/-- Revoke one after the other, and list those that were. -/
def revokeEach (tenantId revokedBy : String) : List (ApiKey τ) → Svc τ (List String)
  | [] => pure []
  | key :: rest => do
    let result ← service.revoke (τ := τ) tenantId key.id revokedBy MAX_UPDATE_ATTEMPTS
    let others ← revokeEach tenantId revokedBy rest
    pure ((result.map ApiKeyView.id).toList ++ others)

/-- The creator whose keys alone are revoked, if any. -/
def creatorFilter : JsValue → Except JsError (Option String)
  | .undefined => .ok none
  | .str s =>
    if isBlank s then .error (invalidRequest "createdBy must be a non-empty string")
    else .ok (some s)
  | _ => .error (invalidRequest "createdBy must be a non-empty string")

/-- `revokeAllApiKeys`. -/
def revokeAllApiKeys (input : RevokeAllApiKeysInput) (caller : PrincipalInput) :
    Svc τ (List String) := do
  let principal ← requireVerifiedPrincipal caller
  check (rejectCallerActor
    (.obj [("revokedBy", input.revokedBy), ("principal", input.principal)]) principal)
  let tenantId ← check (resolveTenant input.tenantId principal)
  let createdBy ← check (creatorFilter input.createdBy)
  let gateway ← check service.gateway
  gateway.execute "apikeys.revoke" (.of principal)
    { type := "api_key", tenantId, attributes := [("createdBy", createdBy.getD "*")] }
    { service := "api-keys" }
    fun _ _ => do
      let keys : List (ApiKey τ) ← (ApiKeyOp.listKeys tenantId).perform
      let candidates := keys.filter fun key =>
        service.owns key tenantId true && key.revokedAt.isNone &&
          createdBy.all fun creator => key.createdBy == creator
      service.revokeEach tenantId principal.principalId (candidates.mergeSort service.revokedBefore)

/-! ### Authenticating -/

/-- `authenticationFailure`. -/
def authenticationFailure (apiKey : ApiKey τ) (secret : String) (now : τ) : Option String :=
  match keyStatus apiKey now with
  | .revoked => some "revoked"
  | .expired => some "expired"
  | .active =>
    match verifySecret service.node secret apiKey.secretHash service.verifierKey with
    | .verifierUnavailable => some "verifier_unavailable"
    | .refused => some "invalid_secret"
    | .verified =>
      if apiKey.applicationId ≠ some service.applicationId then some "application_mismatch" else none

omit [Timestamp τ] in
/-- The record behind a prefix that the object knows: the stored one, or in local mode the
copy it has of a key it created. -/
def findKnown (knownId : String) : Svc τ (Option (ApiKey τ)) := do
  let stored : Option (ApiKey τ) ← (ApiKeyOp.getKey knownId).perform
  match stored with
  | some stored => do
    service.memory (.forgetLocal knownId)
    pure (some stored)
  | none => if service.isLocal then service.memory (.localKey knownId) else pure none

omit [Timestamp τ] in
/-- The record an index of the store leads to. -/
def findIndexed (keyPrefix : String) : Svc τ (Option (ApiKey τ)) := do
  let indexed ← FeltDbApiKeyStore.findByPrefix keyPrefix
  match indexed with
  | some apiKey => do
    service.memory (.rememberPrefix keyPrefix apiKey.id)
    pure (some apiKey)
  | none => pure none

omit [Timestamp τ] in
/-- `findApiKeyByPrefix`. -/
def findApiKeyByPrefix (keyPrefix : String) : Svc τ (Option (ApiKey τ)) := do
  let knownId : Option String ← service.memory (.knownId keyPrefix)
  match keepPresent knownId with
  | none => service.findIndexed keyPrefix
  | some knownId => do
    let known ← service.findKnown knownId
    match known with
    | some apiKey => pure (some apiKey)
    | none => service.findIndexed keyPrefix

omit [Timestamp τ] in
/-- `toPrincipal`: an identity whose key is checked anew on every operation. -/
def toPrincipal (apiKey : ApiKey τ) : Svc τ VerifiedPrincipal := do
  let principal ← mintVerifiedPrincipal {
    principalId := apiKey.id, principalType := "api_key", tenantId := apiKey.tenantId
    applicationId := apiKey.applicationId, credentialId := some apiKey.id } .apiKey
  (AuthorityOp.bindCredential principal {
    apiKeyId := apiKey.id, tenantId := principal.tenantId
    applicationId := service.applicationId }).perform
  pure principal

/-- What is left when every attempt met a conflict: the latest read decides. -/
def authenticateLatest (keyPrefix secret : String) : Svc τ (Option VerifiedPrincipal) := do
  let found ← Task.attempt (service.findApiKeyByPrefix (τ := τ) keyPrefix)
  match found with
  | .error _ | .ok none => pure none
  | .ok (some current) => do
    let t ← now
    match service.authenticationFailure current secret t with
    | some failure => do
      Task.ignore (recordAuthEvent current failure t)
      pure none
    | none => do
      Task.ignore (recordAuthEvent current "success" t)
      let principal ← service.toPrincipal current
      pure (some principal)

/-- The loop of `authenticateApiKeyWithSideEffects`. -/
def authenticateWith (keyPrefix secret : String) : Nat → Svc τ (Option VerifiedPrincipal)
  | 0 => service.authenticateLatest keyPrefix secret
  | attempts + 1 => do
    let found ← Task.attempt (service.findApiKeyByPrefix (τ := τ) keyPrefix)
    match found with
    | .error _ | .ok none => authenticateWith keyPrefix secret attempts
    | .ok (some current) => do
      let t ← now
      match service.authenticationFailure current secret t with
      | some failure => do
        recordAuthEvent current failure t
        pure none
      | none => do
        let updated ← Task.attempt
          (FeltDbApiKeyStore.recordLastUsed current.id current.version t)
        match updated with
        | .error _ | .ok none => authenticateWith keyPrefix secret attempts
        | .ok (some stored) => do
          let updated := { current with
            lastUsedAt := stored.lastUsedAt <|> some t, version := stored.version }
          Task.ignore (recordAuthEvent updated "success" t)
          service.memory (.rememberLocal updated)
          let principal ← service.toPrincipal updated
          pure (some principal)

/-- `authenticateApiKey`. -/
def authenticateApiKey (secret : JsValue) : Svc τ (Option VerifiedPrincipal) :=
  match secret with
  | .str text =>
    match parseApiKeyPrefix text with
    | some keyPrefix => service.authenticateWith keyPrefix text MAX_UPDATE_ATTEMPTS
    | none => pure none
  | _ => pure none

end ApiKeyService

end AppPort
