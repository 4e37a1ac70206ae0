import AppPort.Authority.Basic

/-!
# Raw access to collections

What an application may do to the database by name: `tx.addOperation` and
`tx.collection` of a transaction, and `collection` of the state facade. Each asks
`assertApplicationCollection` first, and what it then hands out is used any number of
times, in any order with everything else.

The guard keeps names of its own, `SERVICE_OWNED_COLLECTIONS`; the services declare what
they store in `SERVICE_COLLECTIONS`. Three names are in the second and not in the first.
What the database does with an operation or a call is its own (`FeltDb`); of it only this
is used, that an operation touches the collection it names (`FeltDb.Confined`).
-/

namespace AppPort

namespace RawAccess

/-! ## The two lists of names -/

/-- The names the guard refuses. -/
def SERVICE_OWNED_COLLECTIONS : List String :=
  ["api_keys", "api_key_prefixes", "api_key_audit_events",
   "webhook_endpoints", "webhook_deliveries", "webhook_audit_events", "webhook_integrations",
   "inbound_webhook_events",
   "jobs", "job_schedules", "job_audit_events",
   "notifications", "notification_deliveries", "notification_audit_events",
   "files", "file_audit_events",
   "ConfigurationVariables", "ConfigurationSecrets", "ConfigurationAuditEvents",
   "service_effect_evidence"]

/-- The names of the collections the services store. -/
def SERVICE_COLLECTIONS : List String :=
  ["service_effect_evidence", "files", "file_audit_events",
   "notifications", "notification_deliveries", "notification_audit_events",
   "ConfigurationVariables", "ConfigurationSecrets", "ConfigurationAuditEvents",
   "Secrets", "SecretVersions", "SecretAuditEvents",
   "api_keys", "api_key_prefixes", "api_key_audit_events",
   "webhook_endpoints", "webhook_deliveries", "webhook_audit_events", "webhook_integrations",
   "inbound_webhook_events",
   "jobs", "job_schedules", "job_audit_events"]

/-- `assertApplicationCollection`. -/
def assertApplicationCollection (name : String) : Except JsError Unit :=
  if name ∈ SERVICE_OWNED_COLLECTIONS then
    .error (serviceError .denied ("Collection \"" ++ name ++ "\" is owned by AppPort Services; " ++
      "use the service capability instead of writing it directly")
      { reason := some "reserved_collection" })
  else .ok ()

/-- What the services store and the guard lets through: what `credential.store` keeps. -/
def unguardedCollections : List String := ["Secrets", "SecretVersions", "SecretAuditEvents"]

theorem assertApplicationCollection_eq_ok {name : String} :
    assertApplicationCollection name = .ok () ↔ name ∉ SERVICE_OWNED_COLLECTIONS := by
  unfold assertApplicationCollection
  split
  · simp_all
  · simp_all

/-- Where the two lists differ. -/
theorem mem_SERVICE_COLLECTIONS {name : String} : name ∈ SERVICE_COLLECTIONS ↔
    name ∈ SERVICE_OWNED_COLLECTIONS ∨ name ∈ unguardedCollections := by
  have hsub : ∀ name ∈ SERVICE_COLLECTIONS,
      name ∈ SERVICE_OWNED_COLLECTIONS ∨ name ∈ unguardedCollections := by decide
  have hsup : ∀ name ∈ SERVICE_OWNED_COLLECTIONS ++ unguardedCollections,
      name ∈ SERVICE_COLLECTIONS := by decide
  constructor
  · exact hsub name
  · intro h
    exact hsup name (List.mem_append.mpr h)

/-! ## The database -/

variable {Doc : Type}

/-- An operation of a transaction. -/
structure TransactionOperation (Doc : Type) where
  collection : String
  id : String
  value : Option Doc := none
  requireAbsent : Bool := false
  requirePresent : Bool := false
  expectedVersion : Option Nat := none

/-- The documents of the collections, by name and id. -/
abbrev Database (Doc : Type) := String → String → Option Doc

/-- What is used of the database, which is not part of AppPort. -/
structure FeltDb (Doc : Type) where
  /-- The calls a collection takes. -/
  Call : Type
  /-- `transaction({ operations })` may leave the documents so; a refused one leaves
  them. -/
  commits : List (TransactionOperation Doc) → Database Doc → Database Doc → Prop
  /-- A call of the collection of this name may leave the documents so. -/
  answers : String → Call → Database Doc → Database Doc → Prop

/-- An operation, or a call, touches no collection but the one it names. -/
structure FeltDb.Confined (db : FeltDb Doc) : Prop where
  commits : ∀ {operations w w' name}, db.commits operations w w' →
    (∀ op ∈ operations, op.collection ≠ name) → w' name = w name
  answers : ∀ {called call w w' name}, db.answers called call w w' → called ≠ name →
    w' name = w name

/-! ## Transactions -/

/-- A transaction of the application: its builder, and the views it handed out. -/
structure Transaction (Doc : Type) where
  operations : List (TransactionOperation Doc) := []
  /-- The names of the views. -/
  views : List String := []
  committed : Bool := false

namespace Transaction

/-- `addOperation`. -/
def addOperation (tx : Transaction Doc) (op : TransactionOperation Doc) :
    Except JsError (Transaction Doc) := do
  assertApplicationCollection op.collection
  pure { tx with operations := tx.operations ++ [op] }

/-- `collection`. -/
def collection (tx : Transaction Doc) (name : String) : Except JsError (Transaction Doc) := do
  assertApplicationCollection name
  pure { tx with views := tx.views ++ [name] }

/-- A view queues an operation on its own collection. -/
def queue (tx : Transaction Doc) (view : Nat) (op : String → TransactionOperation Doc) :
    Except JsError (Transaction Doc) :=
  match tx.views[view]? with
  | some name => .ok { tx with operations := tx.operations ++ [op name] }
  | none => .ok tx

/-- `insert` of a view. -/
def insert (tx : Transaction Doc) (view : Nat) (value : Doc) (id : String) :
    Except JsError (Transaction Doc) :=
  tx.queue view fun name => { collection := name, id, requireAbsent := true, value := some value }

/-- `updateIfVersion` of a view. -/
def updateIfVersion (tx : Transaction Doc) (view : Nat) (id : String) (expectedVersion : Nat)
    (updates : Doc) : Except JsError (Transaction Doc) :=
  tx.queue view fun name =>
    { collection := name, id, expectedVersion := some expectedVersion, value := some updates }

end Transaction

/-! ## Accesses -/

/-- What an application does; a transaction, a view and a collection it was handed are
named by the order in which it got them. -/
inductive Access (db : FeltDb Doc) where
  /-- `transaction(callback)` calls back. -/
  | begin
  | addOperation (tx : Nat) (op : TransactionOperation Doc)
  | collection (tx : Nat) (name : String)
  | insert (tx view : Nat) (value : Doc) (id : String)
  | updateIfVersion (tx view : Nat) (id : String) (expectedVersion : Nat) (updates : Doc)
  /-- The callback is done. -/
  | commit (tx : Nat)
  /-- `state.collection(name)`. -/
  | stateCollection (name : String)
  /-- A call of a collection that the facade handed out. -/
  | call (handle : Nat) (call : db.Call)

/-- The collections an access names. -/
def Access.names {db : FeltDb Doc} : Access db → List String
  | .addOperation _ op => [op.collection]
  | .collection _ name | .stateCollection name => [name]
  | _ => []

structure State (Doc : Type) where
  database : Database Doc
  transactions : List (Transaction Doc) := []
  /-- The names of the collections the facade handed out. -/
  handles : List String := []

namespace State

/-- A transaction takes a call, or refuses it. -/
def onTransaction (s : State Doc) (tx : Nat)
    (f : Transaction Doc → Except JsError (Transaction Doc)) : State Doc :=
  match s.transactions[tx]? with
  | none => s
  | some transaction =>
    match f transaction with
    | .ok next => { s with transactions := s.transactions.set tx next }
    | .error _ => s

/-- `collection` of the state facade. -/
def stateCollection (s : State Doc) (name : String) : State Doc :=
  match assertApplicationCollection name with
  | .ok () => { s with handles := s.handles ++ [name] }
  | .error _ => s

end State

/-- An access may lead from one state to the other. -/
def Step (db : FeltDb Doc) (s : State Doc) : Access db → State Doc → Prop
  | .begin, s' => s' = { s with transactions := s.transactions ++ [{}] }
  | .addOperation tx op, s' => s' = s.onTransaction tx (·.addOperation op)
  | .collection tx name, s' => s' = s.onTransaction tx (·.collection name)
  | .insert tx view value id, s' => s' = s.onTransaction tx (·.insert view value id)
  | .updateIfVersion tx view id expectedVersion updates, s' =>
    s' = s.onTransaction tx (·.updateIfVersion view id expectedVersion updates)
  | .commit tx, s' =>
    match s.transactions[tx]? with
    | none => s' = s
    | some transaction =>
      -- an empty transaction is not sent, and none is sent twice
      if transaction.committed || transaction.operations.isEmpty then s' = s
      else ∃ w, db.commits transaction.operations s.database w ∧
        s' = { s with
          database := w
          transactions := s.transactions.set tx { transaction with committed := true } }
  | .stateCollection name, s' => s' = s.stateCollection name
  | .call handle call, s' =>
    match s.handles[handle]? with
    | none => s' = s
    | some name => ∃ w, db.answers name call s.database w ∧ s' = { s with database := w }

/-- These accesses, one after another, may lead from one state to the other. -/
def Run (db : FeltDb Doc) (s : State Doc) : List (Access db) → State Doc → Prop
  | [], s' => s' = s
  | access :: rest, s' => ∃ next, Step db s access next ∧ Run db next rest s'

/-! ## Sealed collections -/

/-- The transaction has nothing queued on these collections, and no view of one. -/
structure Transaction.Sealed (names : Set String) (tx : Transaction Doc) : Prop where
  operations : ∀ op ∈ tx.operations, op.collection ∉ names
  views : ∀ name ∈ tx.views, name ∉ names

/-- Nothing that was handed out leads to these collections. -/
structure Sealed (names : Set String) (s : State Doc) : Prop where
  transactions : ∀ tx ∈ s.transactions, tx.Sealed names
  handles : ∀ name ∈ s.handles, name ∉ names

/-- Of these collections, the guard refuses what the access names. -/
def Refused {db : FeltDb Doc} (names : Set String) (access : Access db) : Prop :=
  ∀ name ∈ access.names, name ∈ names → name ∈ SERVICE_OWNED_COLLECTIONS

section sealed

variable {db : FeltDb Doc} {names : Set String} {s s' : State Doc} {tx next : Transaction Doc}

/-- What the guard lets through is no sealed collection. -/
theorem notMem_of_guard {name : String} (hrefused : name ∈ names → name ∈ SERVICE_OWNED_COLLECTIONS)
    (hok : assertApplicationCollection name = .ok ()) : name ∉ names := by
  intro hname
  exact assertApplicationCollection_eq_ok.mp hok (hrefused hname)

namespace Transaction

theorem Sealed.queued {op : TransactionOperation Doc} (h : tx.Sealed names)
    (hop : op.collection ∉ names) :
    Transaction.Sealed names { tx with operations := tx.operations ++ [op] } where
  operations := by
    intro queued hqueued
    rcases List.mem_append.mp hqueued with hold | hnew
    · exact h.operations queued hold
    · obtain rfl := List.mem_singleton.mp hnew
      exact hop
  views := h.views

theorem Sealed.addOperation {op : TransactionOperation Doc} (h : tx.Sealed names)
    (hrefused : op.collection ∈ names → op.collection ∈ SERVICE_OWNED_COLLECTIONS)
    (hnext : tx.addOperation op = .ok next) : next.Sealed names := by
  obtain ⟨⟨⟩, hguard, hnext⟩ := bind_eq_ok hnext
  obtain rfl := Except.ok.inj hnext
  exact h.queued (notMem_of_guard hrefused hguard)

theorem Sealed.collection {name : String} (h : tx.Sealed names)
    (hrefused : name ∈ names → name ∈ SERVICE_OWNED_COLLECTIONS)
    (hnext : tx.collection name = .ok next) : next.Sealed names := by
  obtain ⟨⟨⟩, hguard, hnext⟩ := bind_eq_ok hnext
  obtain rfl := Except.ok.inj hnext
  constructor
  · exact h.operations
  · intro view hview
    rcases List.mem_append.mp hview with hold | hnew
    · exact h.views view hold
    · obtain rfl := List.mem_singleton.mp hnew
      exact notMem_of_guard hrefused hguard

/-- A view leads where its name does. -/
theorem Sealed.queue {view : Nat} {op : String → TransactionOperation Doc} (h : tx.Sealed names)
    (hop : ∀ name, (op name).collection = name) (hnext : tx.queue view op = .ok next) :
    next.Sealed names := by
  unfold Transaction.queue at hnext
  cases hview : tx.views[view]? with
  | none =>
    simp only [hview] at hnext
    obtain rfl := Except.ok.inj hnext
    exact h
  | some name =>
    simp only [hview] at hnext
    obtain rfl := Except.ok.inj hnext
    refine h.queued ?_
    rw [hop name]
    exact h.views name (List.mem_of_getElem? hview)

end Transaction

theorem Sealed.onTransaction {i : Nat} {f : Transaction Doc → Except JsError (Transaction Doc)}
    (h : Sealed names s)
    (hf : ∀ tx next, tx.Sealed names → f tx = .ok next → next.Sealed names) :
    Sealed names (s.onTransaction i f) ∧ (s.onTransaction i f).database = s.database := by
  unfold State.onTransaction
  cases htx : s.transactions[i]? with
  | none => exact ⟨h, rfl⟩
  | some tx =>
    have hsealed : tx.Sealed names := h.transactions tx (List.mem_of_getElem? htx)
    cases hnext : f tx with
    | error e => simpa only [hnext] using ⟨h, trivial⟩
    | ok next =>
      simp only [hnext]
      refine ⟨⟨?_, h.handles⟩, trivial⟩
      intro other hother
      rcases List.mem_or_eq_of_mem_set hother with hold | rfl
      · exact h.transactions other hold
      · exact hf tx _ hsealed hnext

/-- **One access.** Where the guard refuses the collections an access names, they stay
sealed, and their documents stay. -/
theorem Sealed.step (hdb : db.Confined) {access : Access db} (h : Sealed names s)
    (hrefused : Refused names access) (hstep : Step db s access s') :
    Sealed names s' ∧ ∀ name ∈ names, s'.database name = s.database name := by
  cases access with
  | begin =>
    obtain rfl := hstep
    refine ⟨⟨?_, h.handles⟩, fun _ _ => rfl⟩
    intro tx htx
    rcases List.mem_append.mp htx with hold | hnew
    · exact h.transactions tx hold
    · obtain rfl := List.mem_singleton.mp hnew
      exact ⟨fun _ hop => (List.not_mem_nil hop).elim, fun _ hview => (List.not_mem_nil hview).elim⟩
  | addOperation tx op =>
    obtain rfl := hstep
    obtain ⟨hsealed, hdatabase⟩ := h.onTransaction (i := tx) (f := (·.addOperation op))
      fun _ _ hs hn => hs.addOperation (hrefused _ List.mem_cons_self) hn
    exact ⟨hsealed, fun name _ => by rw [hdatabase]⟩
  | collection tx name =>
    obtain rfl := hstep
    obtain ⟨hsealed, hdatabase⟩ := h.onTransaction (i := tx) (f := (·.collection name))
      fun _ _ hs hn => hs.collection (hrefused _ List.mem_cons_self) hn
    exact ⟨hsealed, fun name _ => by rw [hdatabase]⟩
  | insert tx view value id =>
    obtain rfl := hstep
    obtain ⟨hsealed, hdatabase⟩ := h.onTransaction (i := tx) (f := (·.insert view value id))
      fun _ _ hs hn => hs.queue (fun _ => rfl) hn
    exact ⟨hsealed, fun name _ => by rw [hdatabase]⟩
  | updateIfVersion tx view id expectedVersion updates =>
    obtain rfl := hstep
    obtain ⟨hsealed, hdatabase⟩ := h.onTransaction (i := tx)
      (f := (·.updateIfVersion view id expectedVersion updates))
      fun _ _ hs hn => hs.queue (fun _ => rfl) hn
    exact ⟨hsealed, fun name _ => by rw [hdatabase]⟩
  | commit tx =>
    unfold Step at hstep
    cases htx : s.transactions[tx]? with
    | none =>
      simp only [htx] at hstep
      obtain rfl := hstep
      exact ⟨h, fun _ _ => rfl⟩
    | some transaction =>
      have hsealed := h.transactions transaction (List.mem_of_getElem? htx)
      simp only [htx] at hstep
      split at hstep
      · obtain rfl := hstep
        exact ⟨h, fun _ _ => rfl⟩
      · obtain ⟨w, hcommits, rfl⟩ := hstep
        refine ⟨⟨?_, h.handles⟩, ?_⟩
        · intro other hother
          rcases List.mem_or_eq_of_mem_set hother with hold | rfl
          · exact h.transactions other hold
          · exact ⟨hsealed.operations, hsealed.views⟩
        · intro name hname
          refine hdb.commits hcommits fun op hop heq => ?_
          exact hsealed.operations op hop (heq ▸ hname)
  | stateCollection name =>
    obtain rfl := hstep
    unfold State.stateCollection
    cases hguard : assertApplicationCollection name with
    | error e => exact ⟨h, fun _ _ => rfl⟩
    | ok _ =>
      refine ⟨⟨h.transactions, ?_⟩, fun _ _ => rfl⟩
      intro handle hhandle
      rcases List.mem_append.mp hhandle with hold | hnew
      · exact h.handles handle hold
      · obtain rfl := List.mem_singleton.mp hnew
        exact notMem_of_guard (hrefused _ List.mem_cons_self) hguard
  | call handle call =>
    unfold Step at hstep
    cases hhandle : s.handles[handle]? with
    | none =>
      simp only [hhandle] at hstep
      obtain rfl := hstep
      exact ⟨h, fun _ _ => rfl⟩
    | some called =>
      simp only [hhandle] at hstep
      obtain ⟨w, hanswers, rfl⟩ := hstep
      refine ⟨⟨h.transactions, h.handles⟩, ?_⟩
      intro name hname
      refine hdb.answers hanswers fun heq => ?_
      exact h.handles called (List.mem_of_getElem? hhandle) (heq ▸ hname)

/-- **Any number of accesses.** -/
theorem Sealed.run (hdb : db.Confined) {accesses : List (Access db)} (h : Sealed names s)
    (hrefused : ∀ access ∈ accesses, Refused names access) (hrun : Run db s accesses s') :
    ∀ name ∈ names, s'.database name = s.database name := by
  induction accesses generalizing s with
  | nil =>
    obtain rfl := hrun
    exact fun _ _ => rfl
  | cons access rest ih =>
    obtain ⟨next, hstep, hrest⟩ := hrun
    obtain ⟨hsealed, hkept⟩ := h.step hdb (hrefused _ List.mem_cons_self) hstep
    intro name hname
    have hlater := ih hsealed (fun a ha => hrefused a (List.mem_cons_of_mem _ ha)) hrest name hname
    rw [hlater, hkept name hname]

/-- Nothing was handed out yet. -/
theorem sealed_start (names : Set String) (database : Database Doc) :
    Sealed names ({ database } : State Doc) where
  transactions := fun _ htx => (List.not_mem_nil htx).elim
  handles := fun _ hname => (List.not_mem_nil hname).elim

end sealed

/-- What the guard refuses is out of reach, whatever an application does. -/
theorem owned_collections_untouched {db : FeltDb Doc} (hdb : db.Confined) {database : Database Doc}
    {accesses : List (Access db)} {s : State Doc} (hrun : Run db { database } accesses s) :
    ∀ name ∈ SERVICE_OWNED_COLLECTIONS, s.database name = database name := by
  have hsealed := sealed_start {name | name ∈ SERVICE_OWNED_COLLECTIONS} database
  exact hsealed.run hdb (fun _ _ _ _ howned => howned) hrun

/-- **Accesses that name none of the three collections of `credential.store` leave every
collection of the services as it is.** -/
theorem raw_access_leaves_service_collections {db : FeltDb Doc} (hdb : db.Confined)
    {database : Database Doc} {accesses : List (Access db)} {s : State Doc}
    (hnames : ∀ access ∈ accesses, ∀ name ∈ access.names, name ∉ unguardedCollections)
    (hrun : Run db { database } accesses s) :
    ∀ name ∈ SERVICE_COLLECTIONS, ∀ id, s.database name id = database name id := by
  have hsealed := sealed_start {name | name ∈ SERVICE_COLLECTIONS} database
  have hrefused : ∀ access ∈ accesses, Refused {name | name ∈ SERVICE_COLLECTIONS} access := by
    intro access haccess name hname hservice
    rcases mem_SERVICE_COLLECTIONS.mp hservice with howned | hunguarded
    · exact howned
    · exact absurd hunguarded (hnames access haccess name hname)
  intro name hname id
  rw [hsealed.run hdb hrefused hrun name hname]

/-! ## A database -/

section sample

/-- Store a document. -/
def put (w : Database String) (name id : String) (value : Option String) : Database String :=
  fun other otherId => if other = name ∧ otherId = id then value <|> w other otherId
    else w other otherId

theorem put_other {w : Database String} {name id other : String} {value : Option String}
    (h : name ≠ other) : put w name id value other = w other := by
  funext otherId
  unfold put
  rw [if_neg]
  intro heq
  exact h heq.1.symm

/-- What an operation requires of the documents. -/
def met (w : Database String) (op : TransactionOperation String) : Bool :=
  (!op.requireAbsent || (w op.collection op.id).isNone) &&
    (!op.requirePresent || (w op.collection op.id).isSome)

/-- Documents without versions: an insertion is all a collection takes. -/
def sampleDb : FeltDb String where
  Call := String × String
  commits operations w w' :=
    w' = if operations.all (met w) then
      operations.foldl (fun w op => put w op.collection op.id op.value) w else w
  answers name inserted w w' := w' = put w name inserted.1 (some inserted.2)

theorem foldl_put_other {name : String} {operations : List (TransactionOperation String)}
    (h : ∀ op ∈ operations, op.collection ≠ name) (w : Database String) :
    operations.foldl (fun w op => put w op.collection op.id op.value) w name = w name := by
  induction operations generalizing w with
  | nil => rfl
  | cons op rest ih =>
    have hrest := ih (fun o ho => h o (List.mem_cons_of_mem _ ho))
      (put w op.collection op.id op.value)
    rw [List.foldl_cons, hrest, put_other (h op List.mem_cons_self)]

theorem sampleDb_confined : sampleDb.Confined where
  commits := by
    intro operations w w' name hcommits hnames
    obtain rfl := hcommits
    split
    · exact foldl_put_other hnames w
    · rfl
  answers := by
    intro called call w w' name hanswers hne
    obtain rfl := hanswers
    exact put_other hne

/-- An application that keeps to a collection of its own. -/
def ownAccesses : List (Access sampleDb) :=
  [.begin, .addOperation 0 { collection := "orders", id := "o1", value := some "paid" },
   .commit 0, .stateCollection "jobs", .stateCollection "orders", .call 0 ("o2", "open")]

theorem raw_access_leaves_service_collections_orders :
    ∃ s, Run sampleDb { database := fun _ _ => none } ownAccesses s ∧
      ∀ name ∈ SERVICE_COLLECTIONS, ∀ id, s.database name id = none := by
  have hrun : ∃ s, Run sampleDb { database := fun _ _ => none } ownAccesses s :=
    ⟨_, _, rfl, _, rfl, _, ⟨_, rfl, rfl⟩, _, rfl, _, rfl, _, ⟨_, rfl, rfl⟩, rfl⟩
  obtain ⟨s, hrun⟩ := hrun
  exact ⟨s, hrun, raw_access_leaves_service_collections sampleDb_confined (by decide) hrun⟩

/-- An application that forges a stored credential, its version and its audit, one by each
way. -/
def forgingAccesses : List (Access sampleDb) :=
  [.begin, .addOperation 0 { collection := "Secrets", id := "s1", value := some "active" },
   .collection 0 "SecretVersions", .insert 0 0 "v1" "s1:1", .commit 0,
   .stateCollection "SecretAuditEvents", .call 0 ("e1", "secret.created")]

/-- **The collections of `credential.store` are written raw, by every way there is.** -/
theorem raw_access_forges_secret :
    sampleDb.Confined ∧
    ∃ s, Run sampleDb { database := fun _ _ => none } forgingAccesses s ∧
      "Secrets" ∈ SERVICE_COLLECTIONS ∧ s.database "Secrets" "s1" = some "active" ∧
      "SecretVersions" ∈ SERVICE_COLLECTIONS ∧ s.database "SecretVersions" "s1:1" = some "v1" ∧
      "SecretAuditEvents" ∈ SERVICE_COLLECTIONS ∧
      s.database "SecretAuditEvents" "e1" = some "secret.created" := by
  refine ⟨sampleDb_confined, _,
    ⟨_, rfl, _, rfl, _, rfl, _, rfl, _, ⟨_, rfl, rfl⟩, _, rfl, _, ⟨_, rfl, rfl⟩, rfl⟩, ?_⟩
  decide

end sample

end RawAccess

end AppPort
