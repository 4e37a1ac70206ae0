import AppPort.Authority.Context

/-!
# Configuration and its stores

The records of the configuration service (variables and credential bindings) with
`FeltDbConfigurationStore` over them, and the value-free metadata of stored credentials
(`Secrets`, `SecretVersions`, `SecretAuditEvents`) that `FeltDbSecretMetadataStore` keeps.
The methods of the first await the database once, so each is one atomic call; the second
awaits it several times in one method, so its calls are those of the database.
-/

namespace AppPort

open Effects

variable {τ : Type}

/-! ## Records -/

inductive ConfigurationEnvironment where
  | development
  | staging
  | production
  deriving DecidableEq, Repr

/-- The environment as it is written. -/
def ConfigurationEnvironment.text : ConfigurationEnvironment → String
  | .development => "development"
  | .staging => "staging"
  | .production => "production"

def CONFIGURATION_ENVIRONMENTS : List ConfigurationEnvironment := [.development, .staging, .production]

/-- Who owns an entry. -/
structure ConfigurationScope where
  tenantId : String
  applicationId : String
  environment : ConfigurationEnvironment
  deriving DecidableEq, Repr

structure ConfigurationVariable (τ : Type) extends ConfigurationScope where
  id : String
  name : String
  value : String
  required : Bool
  createdAt : τ
  updatedAt : τ
  createdBy : String
  /-- `__version`. -/
  version : Nat := 1
  deriving DecidableEq, Repr

/-- A credential binding: a name and a reference into custody. -/
structure ConfigurationSecret (τ : Type) extends ConfigurationScope where
  id : String
  name : String
  credentialRef : String
  required : Bool
  createdAt : τ
  updatedAt : τ
  createdBy : String
  /-- `value` of a row written before bindings were references. -/
  legacyValue : Option String := none
  /-- `__version`. -/
  version : Nat := 1
  deriving DecidableEq, Repr

structure ConfigurationAuditEvent (τ : Type) extends ConfigurationScope where
  id : String
  type : String
  name : String
  kind : String
  actor : String
  timestamp : τ
  operation : String
  status : String
  deriving DecidableEq, Repr

instance : Versioned (ConfigurationVariable τ) where
  version v := v.version
  withVersion v n := { v with version := n }
  version_withVersion _ _ := rfl

instance : Versioned (ConfigurationSecret τ) where
  version s := s.version
  withVersion s n := { s with version := n }
  version_withVersion _ _ := rfl

@[simp] theorem version_variable (v : ConfigurationVariable τ) : Versioned.version v = v.version := rfl

@[simp] theorem version_binding (s : ConfigurationSecret τ) : Versioned.version s = s.version := rfl

/-- The entry is one of the scope. -/
def ConfigurationScope.owns (scope : ConfigurationScope) (of : ConfigurationScope) : Bool :=
  of.tenantId == scope.tenantId && of.applicationId == scope.applicationId &&
    of.environment == scope.environment

@[simp] theorem owns_iff {scope of : ConfigurationScope} : scope.owns of = true ↔ of = scope := by
  cases scope
  cases of
  simp [ConfigurationScope.owns, and_assoc]

/-! ## Variables and bindings -/

/-- The methods of the configuration store. -/
inductive ConfigurationOp (τ : Type) where
  | listVariables (scope : ConfigurationScope)
  | getVariable (scope : ConfigurationScope) (name : String)
  | saveVariable (item : ConfigurationVariable τ) (expectedVersion : Option Nat)
  | deleteVariable (item : ConfigurationVariable τ)
  | listSecrets (scope : ConfigurationScope)
  | getSecret (scope : ConfigurationScope) (name : String)
  | saveSecret (item : ConfigurationSecret τ) (expectedVersion : Option Nat)
  | deleteSecret (item : ConfigurationSecret τ)
  | audit (event : ConfigurationAuditEvent τ)

/-- What they answer with. -/
@[reducible] def ConfigurationOp.Out (τ : Type) : ConfigurationOp τ → Type
  | .listVariables _ => List (ConfigurationVariable τ)
  | .getVariable _ _ => Option (ConfigurationVariable τ)
  | .listSecrets _ => List (ConfigurationSecret τ)
  | .getSecret _ _ => Option (ConfigurationSecret τ)
  | .saveVariable _ _ | .saveSecret _ _ | .deleteVariable _ | .deleteSecret _ | .audit _ => Unit

/-- The collections of the configuration store. -/
structure ConfigurationTables (τ : Type) where
  variableTable : Table String (ConfigurationVariable τ) := Table.empty
  secretTable : Table String (ConfigurationSecret τ) := Table.empty
  audit : List (ConfigurationAuditEvent τ) := []

/-- `saveVariable`, `saveSecret`: an insertion, or a write fenced on the version read. -/
def saveItem {α : Type} [Versioned α] (t : Table String α) (id : String) (item : α)
    (expectedVersion : Option Nat) : Except JsError Unit × Table String α :=
  match expectedVersion with
  | none =>
    match t.insertAbsent id item with
    | some t' => (.ok (), t')
    | none => (.error absentError, t)
  | some version =>
    match t.updateIfVersion id version fun _ => item with
    | (some _, t') => (.ok (), t')
    | (none, t') => (.error (.other "Configuration changed concurrently"), t')

/-- The variables of a scope. -/
def ConfigurationTables.variablesOf (db : ConfigurationTables τ) (scope : ConfigurationScope) :
    List (ConfigurationVariable τ) :=
  db.variableTable.find fun v => scope.owns v.toConfigurationScope

/-- The bindings of a scope. -/
def ConfigurationTables.secretsOf (db : ConfigurationTables τ) (scope : ConfigurationScope) :
    List (ConfigurationSecret τ) :=
  db.secretTable.find fun s => scope.owns s.toConfigurationScope

/-- The binding a name is read as: the first one under it. -/
def ConfigurationTables.bindingOf (db : ConfigurationTables τ) (scope : ConfigurationScope)
    (name : String) : Option (ConfigurationSecret τ) :=
  (db.secretTable.find fun s => scope.owns s.toConfigurationScope && s.name == name).head?

/-- The variable a name is read as. -/
def ConfigurationTables.variableOf (db : ConfigurationTables τ) (scope : ConfigurationScope)
    (name : String) : Option (ConfigurationVariable τ) :=
  (db.variableTable.find fun v => scope.owns v.toConfigurationScope && v.name == name).head?

/-- The configuration store over its tables. -/
def ConfigurationOp.exec (db : ConfigurationTables τ) :
    (op : ConfigurationOp τ) → Except JsError (op.Out τ) × ConfigurationTables τ
  | .listVariables scope => (.ok (db.variablesOf scope), db)
  | .getVariable scope name => (.ok (db.variableOf scope name), db)
  | .saveVariable item expectedVersion =>
    match saveItem db.variableTable item.id item expectedVersion with
    | (r, variableTable) => (r, { db with variableTable })
  | .deleteVariable item => (.ok (), { db with variableTable := db.variableTable.erase item.id })
  | .listSecrets scope => (.ok (db.secretsOf scope), db)
  | .getSecret scope name => (.ok (db.bindingOf scope name), db)
  | .saveSecret item expectedVersion =>
    match saveItem db.secretTable item.id item expectedVersion with
    | (r, secretTable) => (r, { db with secretTable })
  | .deleteSecret item => (.ok (), { db with secretTable := db.secretTable.erase item.id })
  | .audit event => (.ok (), { db with audit := event :: db.audit })

/-! ## Metadata of stored credentials -/

/-- The head record of a credential. -/
structure Secret where
  id : String
  tenantId : String
  /-- The id in its reference. -/
  name : String
  currentVersion : Int
  status : String
  providerRef : String
  provider : Option String := none
  kind : Option String := none
  createdAt : String
  createdBy : String
  deriving DecidableEq, Repr

inductive SecretVersionStatus where
  | active
  | revoked
  | retired
  deriving DecidableEq, Repr

structure SecretVersion where
  id : String
  /-- The head record. -/
  secretId : String
  tenantId : String
  version : Int
  providerRef : String
  status : SecretVersionStatus
  createdAt : String
  createdBy : String
  deriving DecidableEq, Repr

structure SecretAuditEvent where
  id : String
  type : String
  secretId : String
  version : Option Int := none
  tenantId : String
  principalId : String
  timestamp : String
  result : String
  purpose : String
  provider : Option String := none
  reason : Option String := none
  deriving DecidableEq, Repr

/-- The calls of the database that `FeltDbSecretMetadataStore` makes. -/
inductive SecretMetadataOp where
  /-- `secrets.find({ tenantId, name })`, of which the first is taken. -/
  | findSecret (tenantId name : String)
  | updateSecret (id : String) (secret : Secret)
  | insertSecret (secret : Secret)
  /-- `versions.find({ secretId, status: 'active' })`. -/
  | findActive (secretId : String)
  | updateVersion (id : String) (version : SecretVersion)
  | insertVersion (version : SecretVersion)
  | insertEvent (event : SecretAuditEvent)

/-- What they answer with. -/
@[reducible] def SecretMetadataOp.Out : SecretMetadataOp → Type
  | .findSecret _ _ => Option Secret
  | .findActive _ => List SecretVersion
  | .updateSecret _ _ | .insertSecret _ | .updateVersion _ _ | .insertVersion _
  | .insertEvent _ => Unit

/-- `Secrets`, `SecretVersions` and `SecretAuditEvents`. -/
structure SecretMetadataTables where
  secrets : Table String Secret := Table.empty
  versions : Table String SecretVersion := Table.empty
  audit : List SecretAuditEvent := []

/-- The head records of a name. -/
def SecretMetadataTables.heads (db : SecretMetadataTables) (tenantId name : String) : List Secret :=
  db.secrets.find fun s => s.tenantId == tenantId && s.name == name

/-- The versions of a head record. -/
def SecretMetadataTables.versionsOf (db : SecretMetadataTables) (secretId : String) :
    List SecretVersion :=
  db.versions.find fun v => v.secretId == secretId

/-- The metadata store over its tables. -/
def SecretMetadataOp.exec (db : SecretMetadataTables) :
    (op : SecretMetadataOp) → Except JsError op.Out × SecretMetadataTables
  | .findSecret tenantId name => (.ok (db.heads tenantId name).head?, db)
  | .updateSecret id secret => (.ok (), { db with secrets := db.secrets.put id secret })
  | .insertSecret secret =>
    match db.secrets.insertAbsent secret.id secret with
    | some secrets => (.ok (), { db with secrets })
    | none => (.error absentError, db)
  | .findActive secretId =>
    (.ok (db.versions.find fun v => v.secretId == secretId && v.status == .active), db)
  | .updateVersion id version => (.ok (), { db with versions := db.versions.put id version })
  | .insertVersion version =>
    match db.versions.insertAbsent version.id version with
    | some versions => (.ok (), { db with versions })
    | none => (.error absentError, db)
  | .insertEvent event => (.ok (), { db with audit := event :: db.audit })

end AppPort
