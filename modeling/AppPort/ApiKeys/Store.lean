import AppPort.ApiKeys.Restrictions
import AppPort.Lib.Table

/-!
# API keys and their store

The key records and the calls of `FeltDbApiKeyStore`, over a table of keys and one of
prefix pointers. Issuing a key inserts both in one transaction; rotating a key overwrites
it and issues its replacement in one transaction, fenced on the version that was read.
Every other write sends a whole record, which the database merges into the stored one.
-/

namespace AppPort

open Effects

variable {τ : Type}

structure ApiKey (τ : Type) where
  id : String
  tenantId : String
  applicationId : Option String := none
  name : String
  keyPrefix : String
  /-- Verifier only, never the secret. -/
  secretHash : String
  scopes : List String := []
  /-- Absent: no ceiling beyond the authorizer. -/
  restrictions : Option ApiKeyRestrictions := none
  createdAt : τ
  expiresAt : Option τ := none
  revokedAt : Option τ := none
  revokedBy : Option String := none
  lastUsedAt : Option τ := none
  updatedAt : Option τ := none
  updatedBy : Option String := none
  rotatedFrom : Option String := none
  rotatedTo : Option String := none
  rotatedAt : Option τ := none
  createdBy : String
  /-- `__version`. -/
  version : Nat := 1
  deriving DecidableEq, Repr

/-- The pointer from a prefix to the key that bears it. -/
structure ApiKeyPrefixRecord (τ : Type) where
  id : String
  apiKeyId : String
  tenantId : String
  createdAt : τ
  deriving DecidableEq, Repr

structure ApiKeyAuditEvent (τ : Type) where
  id : String
  type : String
  credentialId : String
  tenantId : String
  principalId : String
  timestamp : τ
  result : String
  changes : Option (List String) := none
  relatedCredentialId : Option String := none
  deriving DecidableEq, Repr

inductive ApiKeyStatus where
  | active
  | expired
  | revoked
  deriving DecidableEq, Repr

def ApiKeyStatus.text : ApiKeyStatus → String
  | .active => "active"
  | .expired => "expired"
  | .revoked => "revoked"

/-- `keyStatus`. -/
def keyStatus [Timestamp τ] (key : ApiKey τ) (now : τ) : ApiKeyStatus :=
  if key.revokedAt.isSome then .revoked
  else if key.expiresAt.any fun t => Timestamp.getTime t ≤ Timestamp.getTime now then .expired
  else .active

/-- An active key is not revoked. -/
theorem revokedAt_of_active [Timestamp τ] {key : ApiKey τ} {now : τ}
    (h : keyStatus key now = .active) : key.revokedAt = none := by
  unfold keyStatus at h
  cases hrevoked : key.revokedAt with
  | none => rfl
  | some t =>
    rw [hrevoked] at h
    cases h

instance : Versioned (ApiKey τ) where
  version k := k.version
  withVersion k v := { k with version := v }
  version_withVersion _ _ := rfl

@[simp] theorem version_apiKey (k : ApiKey τ) : Versioned.version k = k.version := rfl

@[simp] theorem withVersion_apiKey (k : ApiKey τ) (v : Nat) :
    Versioned.withVersion k v = { k with version := v } := rfl

/-! ## Whole-record writes -/

/-- The optional fields of a key. -/
inductive ApiKeyField where
  | applicationId
  | restrictions
  | expiresAt
  | revokedAt
  | revokedBy
  | lastUsedAt
  | updatedAt
  | updatedBy
  | rotatedFrom
  | rotatedTo
  | rotatedAt
  deriving DecidableEq, Repr

def ApiKeyField.all : List ApiKeyField :=
  [.applicationId, .restrictions, .expiresAt, .revokedAt, .revokedBy, .lastUsedAt, .updatedAt,
    .updatedBy, .rotatedFrom, .rotatedTo, .rotatedAt]

/-- `field in key`. A field that was cleared is stored as `null`, which nothing tells from
an absent one. -/
def ApiKey.has (key : ApiKey τ) : ApiKeyField → Bool
  | .applicationId => key.applicationId.isSome
  | .restrictions => key.restrictions.isSome
  | .expiresAt => key.expiresAt.isSome
  | .revokedAt => key.revokedAt.isSome
  | .revokedBy => key.revokedBy.isSome
  | .lastUsedAt => key.lastUsedAt.isSome
  | .updatedAt => key.updatedAt.isSome
  | .updatedBy => key.updatedBy.isSome
  | .rotatedFrom => key.rotatedFrom.isSome
  | .rotatedTo => key.rotatedTo.isSome
  | .rotatedAt => key.rotatedAt.isSome

/-- What `replace` writes as `null`: the fields of the stored record that `next` lacks. -/
def clearedFields (current next : ApiKey τ) : List ApiKeyField :=
  ApiKeyField.all.filter fun field => current.has field && !next.has field

/-- A merged field: the one that is sent, else the stored one unless it is cleared. -/
def mergeField {α : Type} (sent : Option α) (isCleared : Bool) (stored : Option α) : Option α :=
  sent <|> if isCleared then none else stored

/-- `updateIfVersion` merges: the fields of `sent` overwrite, the `cleared` ones are removed,
the others stay. The version is the store's own. -/
def mergeKey (sent : ApiKey τ) (cleared : List ApiKeyField) (stored : ApiKey τ) : ApiKey τ where
  id := sent.id
  tenantId := sent.tenantId
  applicationId := mergeField sent.applicationId (cleared.contains .applicationId) stored.applicationId
  name := sent.name
  keyPrefix := sent.keyPrefix
  secretHash := sent.secretHash
  scopes := sent.scopes
  restrictions := mergeField sent.restrictions (cleared.contains .restrictions) stored.restrictions
  createdAt := sent.createdAt
  expiresAt := mergeField sent.expiresAt (cleared.contains .expiresAt) stored.expiresAt
  revokedAt := mergeField sent.revokedAt (cleared.contains .revokedAt) stored.revokedAt
  revokedBy := mergeField sent.revokedBy (cleared.contains .revokedBy) stored.revokedBy
  lastUsedAt := mergeField sent.lastUsedAt (cleared.contains .lastUsedAt) stored.lastUsedAt
  updatedAt := mergeField sent.updatedAt (cleared.contains .updatedAt) stored.updatedAt
  updatedBy := mergeField sent.updatedBy (cleared.contains .updatedBy) stored.updatedBy
  rotatedFrom := mergeField sent.rotatedFrom (cleared.contains .rotatedFrom) stored.rotatedFrom
  rotatedTo := mergeField sent.rotatedTo (cleared.contains .rotatedTo) stored.rotatedTo
  rotatedAt := mergeField sent.rotatedAt (cleared.contains .rotatedAt) stored.rotatedAt
  createdBy := sent.createdBy
  version := stored.version

theorem mergeField_eq_sent {α : Type} {sent stored : Option α} {isCleared : Bool}
    (h : stored.isSome = true → sent.isSome = true ∨ isCleared = true) :
    mergeField sent isCleared stored = sent := by
  cases sent with
  | some a => rfl
  | none =>
    cases stored with
    | none => cases isCleared <;> rfl
    | some a =>
      obtain hs | hc := h rfl
      · cases hs
      · rw [hc]
        rfl

/-- **A whole record replaces.** When every stored field is sent or cleared, what is
written is what was sent. -/
theorem mergeKey_eq_sent {sent stored : ApiKey τ} {cleared : List ApiKeyField}
    (h : ∀ field, stored.has field = true → sent.has field = true ∨ field ∈ cleared)
    (hversion : stored.version = sent.version) : mergeKey sent cleared stored = sent := by
  have hfield : ∀ field, stored.has field = true →
      sent.has field = true ∨ cleared.contains field = true := by
    intro field hstored
    rw [List.contains_iff_mem]
    exact h field hstored
  unfold mergeKey
  rw [mergeField_eq_sent (hfield .applicationId), mergeField_eq_sent (hfield .restrictions),
    mergeField_eq_sent (hfield .expiresAt), mergeField_eq_sent (hfield .revokedAt),
    mergeField_eq_sent (hfield .revokedBy), mergeField_eq_sent (hfield .lastUsedAt),
    mergeField_eq_sent (hfield .updatedAt), mergeField_eq_sent (hfield .updatedBy),
    mergeField_eq_sent (hfield .rotatedFrom), mergeField_eq_sent (hfield .rotatedTo),
    mergeField_eq_sent (hfield .rotatedAt), hversion]

/-- What `replace` sends over the record it read. -/
theorem mergeKey_replace {current next : ApiKey τ} (hversion : current.version = next.version) :
    mergeKey next (clearedFields current next) current = next := by
  refine mergeKey_eq_sent (fun field hfield => ?_) hversion
  cases hnext : next.has field with
  | true => exact .inl rfl
  | false =>
    refine .inr (List.mem_filter.mpr ⟨?_, by rw [hfield, hnext]; rfl⟩)
    cases field <;> decide

/-- A record with fields added, sent over the record. -/
theorem mergeKey_extends {current next : ApiKey τ}
    (h : ∀ field, current.has field = true → next.has field = true)
    (hversion : current.version = next.version) : mergeKey next [] current = next :=
  mergeKey_eq_sent (fun field hfield => .inl (h field hfield)) hversion

/-! ## The collections -/

/-- The calls of the key store; `getPrefix` and `getKey` are the two reads of
`findByPrefix`. -/
inductive ApiKeyOp (τ : Type) where
  | create (apiKey : ApiKey τ)
  | rotate (current retired replacement : ApiKey τ)
  | getKey (id : String)
  | getPrefix (keyPrefix : String)
  | listKeys (tenantId : String)
  | updateIfVersion (id : String) (expectedVersion : Nat) (sent : ApiKey τ)
      (cleared : List ApiKeyField)

/-- What they answer with. -/
@[reducible] def ApiKeyOp.Out (τ : Type) : ApiKeyOp τ → Type
  | .create _ | .rotate _ _ _ => Unit
  | .getKey _ | .updateIfVersion _ _ _ _ => Option (ApiKey τ)
  | .getPrefix _ => Option (ApiKeyPrefixRecord τ)
  | .listKeys _ => List (ApiKey τ)

/-- The collections of the key store. -/
structure ApiKeyTables (τ : Type) where
  keys : Table String (ApiKey τ) := Table.empty
  prefixes : Table String (ApiKeyPrefixRecord τ) := Table.empty

/-- The pointer `issueOperations` inserts beside a key. -/
def prefixRecord (apiKey : ApiKey τ) : ApiKeyPrefixRecord τ where
  id := apiKey.keyPrefix
  apiKeyId := apiKey.id
  tenantId := apiKey.tenantId
  createdAt := apiKey.createdAt

/-- `issueOperations`: the key and its pointer, both under absent ids. -/
def issueOperations (db : ApiKeyTables τ) (apiKey : ApiKey τ) : Option (ApiKeyTables τ) :=
  match db.keys.insertAbsent apiKey.id apiKey,
      db.prefixes.insertAbsent apiKey.keyPrefix (prefixRecord apiKey) with
  | some keys, some prefixes => some { keys, prefixes }
  | _, _ => none

/-- The operations of `rotate`, all or none. -/
def rotateOperations (db : ApiKeyTables τ) (current retired replacement : ApiKey τ) :
    Option (ApiKeyTables τ) :=
  match db.keys.get current.id with
  | some stored =>
    if stored.version = current.version then
      issueOperations
        { db with keys := db.keys.put current.id { retired with version := current.version + 1 } }
        replacement
    else none
  | none => none

/-- The key store over its tables. -/
def ApiKeyOp.exec (db : ApiKeyTables τ) :
    (op : ApiKeyOp τ) → Except JsError (op.Out τ) × ApiKeyTables τ
  | .create apiKey =>
    match issueOperations db apiKey with
    | some db' => (.ok (), db')
    | none => (.error absentError, db)
  | .rotate current retired replacement =>
    match rotateOperations db current retired replacement with
    | some db' => (.ok (), db')
    | none => (.error versionError, db)
  | .getKey id => (.ok (db.keys.get id), db)
  | .getPrefix keyPrefix => (.ok (db.prefixes.get keyPrefix), db)
  | .listKeys tenantId => (.ok (db.keys.find (fun k => k.tenantId == tenantId)), db)
  | .updateIfVersion id expectedVersion sent cleared =>
    match db.keys.updateIfVersion id expectedVersion (mergeKey sent cleared) with
    | (r, keys) => (.ok r, { db with keys })

/-! ## What a service remembers -/

def MAX_CACHED_PREFIXES : Nat := 10000

def MAX_LOCAL_KEYS : Nat := 1000

/-- The lookup hints of one service object: `knownPrefixes` and `locallyCreatedKeys`, oldest
entry first. -/
structure ApiKeyMemory (τ : Type) where
  knownPrefixes : List (String × String) := []
  locallyCreatedKeys : List (String × ApiKey τ) := []

/-- `evictOldest`. -/
def evictOldest {α : Type} (entries : List α) (max : Nat) : List α :=
  entries.drop (entries.length - max)

/-- `map.delete(key)`. -/
def dropEntry {α : Type} (entries : List (String × α)) (key : String) : List (String × α) :=
  entries.filter fun entry => entry.1 != key

/-- The uses a service makes of its hints. -/
inductive ApiKeyMemoryOp (τ : Type) where
  /-- `knownPrefixes.get(prefix)`. -/
  | knownId (keyPrefix : String)
  | rememberPrefix (keyPrefix id : String)
  /-- `locallyCreatedKeys.get(id)`. -/
  | localKey (id : String)
  /-- `locallyCreatedKeys.delete(id)`. -/
  | forgetLocal (id : String)
  | rememberCreated (apiKey : ApiKey τ)
  | rememberLocal (apiKey : ApiKey τ)

@[reducible] def ApiKeyMemoryOp.Out (τ : Type) : ApiKeyMemoryOp τ → Type
  | .knownId _ => Option String
  | .localKey _ => Option (ApiKey τ)
  | .rememberPrefix _ _ | .forgetLocal _ | .rememberCreated _ | .rememberLocal _ => Unit

def ApiKeyMemoryOp.exec (memory : ApiKeyMemory τ) :
    (op : ApiKeyMemoryOp τ) → op.Out τ × ApiKeyMemory τ
  | .knownId keyPrefix => (memory.knownPrefixes.lookup keyPrefix, memory)
  | .rememberPrefix keyPrefix id =>
    let entries := dropEntry memory.knownPrefixes keyPrefix ++ [(keyPrefix, id)]
    ((), { memory with knownPrefixes := evictOldest entries MAX_CACHED_PREFIXES })
  | .localKey id => (memory.locallyCreatedKeys.lookup id, memory)
  | .forgetLocal id =>
    ((), { memory with locallyCreatedKeys := dropEntry memory.locallyCreatedKeys id })
  | .rememberCreated apiKey =>
    let entries := setEntry memory.locallyCreatedKeys apiKey.id apiKey
    ((), { memory with locallyCreatedKeys := evictOldest entries MAX_LOCAL_KEYS })
  | .rememberLocal apiKey =>
    let entries := setEntry memory.locallyCreatedKeys apiKey.id apiKey
    let tracked := memory.locallyCreatedKeys.any fun entry => entry.1 == apiKey.id
    ((), if tracked then { memory with locallyCreatedKeys := entries } else memory)

/-! ## The live check of a key-backed principal -/

/-- What `toPrincipal` binds to the principal it mints: the key it came from, and the
tenant and application the key had to have. -/
structure CredentialBinding where
  apiKeyId : String
  tenantId : String
  applicationId : String
  deriving DecidableEq, Repr

/-- The bound check, on the record it reads: the key is known, live, and permits the
operation. -/
def CredentialBinding.check [Timestamp τ] (binding : CredentialBinding) (current : Option (ApiKey τ))
    (now : τ) (capability : String) (resource : ServiceResource) : Except JsError Unit :=
  let deny (reason message : String) : Except JsError Unit :=
    .error (serviceError .denied message { capability := some capability, reason := some reason })
  match current with
  | none => deny "credential_unknown" "API key is unknown"
  | some key =>
    if key.tenantId ≠ binding.tenantId ∨ key.applicationId ≠ some binding.applicationId then
      deny "credential_unknown" "API key is unknown"
    else
      match keyStatus key now with
      | .revoked => deny "credential_revoked" "API key has been revoked"
      | .expired => deny "credential_expired" "API key has expired"
      | .active =>
        if restrictionsPermit key.restrictions capability resource then .ok ()
        else deny "credential_restricted"
          ("API key restrictions do not permit " ++ capability ++ " on this resource")

end AppPort
