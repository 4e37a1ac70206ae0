import AppPort.Authority.Enforcement
import AppPort.ApiKeys.Service

/-!
# The protocol of the key store

Any number of processes of any number of services create, update, rotate and revoke keys,
authenticate with them, and authorize what the principals ask for, over one store. The
phase of a process says what it has read of the key it works on, and of the caller's own.

Every write of a key sends a whole record. What makes this safe is in the phases: the
record was read under the version that the write expects, and it was not revoked.
-/

namespace AppPort

open Effects Effects.Platform

variable {τ : Type}

/-! ## The platform -/

inductive ApiKeyEntry (τ : Type) where
  | createApiKey (input : CreateApiKeyInput τ) (caller : PrincipalInput)
  | updateApiKey (input : UpdateApiKeyInput τ) (caller : PrincipalInput)
  | rotateApiKey (input : RotateApiKeyInput) (caller : PrincipalInput)
  | revokeApiKey (input : RevokeApiKeyInput) (caller : PrincipalInput)
  | revokeAllApiKeys (input : RevokeAllApiKeysInput) (caller : PrincipalInput)
  | authenticateApiKey (secret : JsValue)
  /-- A service asks whether a principal may do something. -/
  | authorize (gateway : ServiceGateway) (capability : String) (principal : PrincipalInput)
      (resource : ServiceResource) (requestId : String)
  /-- The host's adapter brands an identity of its own. -/
  | identify (gateway : ServiceGateway) (claims : PrincipalClaims)

structure ApiKeyCall (τ : Type) where
  service : ApiKeyService
  entry : ApiKeyEntry τ

/-- What an entry point answers with. -/
inductive ApiKeyAnswer (τ : Type) where
  | created (key : CreatedApiKey)
  | viewed (key : Option (ApiKeyView τ))
  | rotated (key : Option (RotatedApiKey τ))
  | revoked (ids : List String)
  | authenticated (principal : Option VerifiedPrincipal)
  | authorized (context : ServiceExecutionContext τ)
  | identified (principal : VerifiedPrincipal)

/-- What happens besides the calls. -/
inductive ApiKeyEnv (τ : Type) where
  /-- Time passes. -/
  | tick (t : τ)
  /-- Anything that is not of the key service or of identities changes. -/
  | others (f : World τ → World τ)

/-- Who calls, where it matters what the caller's own key permits. -/
def ApiKeyEntry.caller : ApiKeyEntry τ → PrincipalInput
  | .createApiKey _ caller | .updateApiKey _ caller | .rotateApiKey _ caller => caller
  | _ => .missing

/-- The expiry date that was handed over. -/
def ApiKeyEntry.givenExpiry : ApiKeyEntry τ → Option τ
  | .createApiKey { expiresAt := .date t, .. } _ => t
  | .updateApiKey { expiresAt := .date t, .. } _ => t
  | _ => none

section platform

variable [Timestamp τ]

def apiKeyBody (call : ApiKeyCall τ) : Svc τ (ApiKeyAnswer τ) :=
  match call.entry with
  | .createApiKey input caller =>
    (call.service.createApiKey input caller).bind fun key => pure (.created key)
  | .updateApiKey input caller =>
    (call.service.updateApiKey input caller).bind fun key => pure (.viewed key)
  | .rotateApiKey input caller =>
    (call.service.rotateApiKey input caller).bind fun key => pure (.rotated key)
  | .revokeApiKey input caller =>
    (call.service.revokeApiKey input caller).bind fun key => pure (.viewed key)
  | .revokeAllApiKeys input caller =>
    (call.service.revokeAllApiKeys input caller).bind fun ids => pure (.revoked ids)
  | .authenticateApiKey secret =>
    (call.service.authenticateApiKey secret).bind fun p => pure (.authenticated p)
  | .authorize gateway capability principal resource requestId =>
    (gateway.authorize capability principal resource requestId).bind fun c => pure (.authorized c)
  | .identify gateway claims => (gateway.identify claims).bind fun p => pure (.identified p)

def apiKeyEnv (move : ApiKeyEnv τ) (w : World τ) : Option (World τ) :=
  match move with
  | .tick t => if w.clock ≤ t then some { w with clock := t } else none
  | .others f => some { f w with
      clock := w.clock, nextRef := w.nextRef, verified := w.verified, bound := w.bound
      keyMemory := w.keyMemory, apiKeys := w.apiKeys }

abbrev apiKeyPlatform (τ : Type) [Timestamp τ] : Platform :=
  appPlatform (apiKeyBody (τ := τ)) apiKeyEnv

/-! ## Phases -/

/-- Where a process stands. -/
inductive KeyPhase (τ : Type) where
  /-- It holds no key; `ceiling` is the caller's own, once that was read. -/
  | idle (ceiling : Option (ApiKey τ))
  /-- It remembers the id of a key. -/
  | known (id : String)
  /-- A key it remembers is not there. No run leads here. -/
  | lost
  /-- It read this key, then the clock and the caller's key. -/
  | read (current : ApiKey τ) (time : Option τ) (ceiling : Option (ApiKey τ))
  /-- The store method read the key once more. -/
  | storing (current stored : ApiKey τ) (ceiling : Option (ApiKey τ))
  | issued (key : ApiKey τ)
  | rotated (current replacement : ApiKey τ)
  | minted (current : ApiKey τ) (principal : VerifiedPrincipal)
  | bound (current : ApiKey τ) (principal : VerifiedPrincipal)

/-- The id of a key that the process knows to be stored. -/
def KeyPhase.storedId : KeyPhase τ → Option String
  | .read current _ _ => some current.id
  | .issued key | .rotated _ key => some key.id
  | _ => none

/-- The caller's key, under its id. -/
def IsCallerKey (call : ApiKeyCall τ) (credentialId : String) : Prop :=
  ∃ p hasScopes, call.entry.caller = .object p hasScopes ∧ p.verifiedBy = .apiKey ∧
    keepPresent p.credentialId = some credentialId

/-- The caller's ceiling was read and covers the request, where the caller has one. -/
def Covers (call : ApiKeyCall τ) (ceiling : Option (ApiKey τ))
    (restrictions : Option ApiKeyRestrictions) (expiresAt : Option τ) : Prop :=
  ∀ credentialId, IsCallerKey call credentialId →
    ∃ callerKey, ceiling = some callerKey ∧
      ApiKeyService.withinCaller callerKey restrictions expiresAt = .ok ()

/-- Someone calls whose own key may be a ceiling. -/
def HasCaller (call : ApiKeyCall τ) : Prop :=
  ∃ p hasScopes, call.entry.caller = .object p hasScopes

/-- A key as it is issued. -/
structure FreshKey (key : ApiKey τ) : Prop where
  id : key.id ≠ ""
  revokedAt : key.revokedAt = none
  rotatedTo : key.rotatedTo = none
  version : key.version = 1

/-- A key as `createApiKey` issues it. -/
structure KeyCreation (call : ApiKeyCall τ) (ceiling : Option (ApiKey τ)) (key : ApiKey τ) : Prop where
  caller : HasCaller call
  fresh : FreshKey key
  rotatedFrom : key.rotatedFrom = none
  covered : Covers call ceiling key.restrictions key.expiresAt
  expiry : ∀ t, key.expiresAt = some t → call.entry.givenExpiry = some t

/-- The records of a rotation. -/
structure Rotation (call : ApiKeyCall τ) (t : τ) (ceiling : Option (ApiKey τ))
    (current retired replacement : ApiKey τ) : Prop where
  caller : HasCaller call
  live : current.revokedAt = none
  unrotated : present current.rotatedTo = false
  fresh : FreshKey replacement
  rotatedFrom : replacement.rotatedFrom = keepPresent (some current.id)
  restrictions : replacement.restrictions = current.restrictions
  expiresAt : replacement.expiresAt = current.expiresAt
  covered : Covers call ceiling current.restrictions current.expiresAt
  retirement : ∃ overlapSeconds overlapEnd rotatedBy, overlapSeconds ≤ MAX_OVERLAP_SECONDS ∧
    Timestamp.after t (overlapSeconds * 1000) = some overlapEnd ∧
    retired = ApiKeyService.retire current replacement.id t overlapEnd overlapSeconds rotatedBy

/-- The records that may replace a key under its version. -/
inductive KeyWrite (call : ApiKeyCall τ) (ceiling : Option (ApiKey τ)) (current : ApiKey τ) :
    ApiKey τ → Prop where
  | used (t : τ) : KeyWrite call ceiling current { current with lastUsedAt := some t }
  | revoked (t : τ) (revokedBy : Option String) : KeyWrite call ceiling current
      { current with revokedAt := some t, revokedBy := keepPresent revokedBy <|> current.revokedBy }
  | updated (changes : ApiKeyChanges τ) (t : τ) (updatedBy : String) (hcaller : HasCaller call)
    (hcovered : changes.touchesCeiling = true → Covers call ceiling
      (changes.applied current t updatedBy).restrictions (changes.applied current t updatedBy).expiresAt)
    (hexpiry : ∀ e, changes.expiresAt = some (some e) → call.entry.givenExpiry = some e) :
    KeyWrite call ceiling current (changes.applied current t updatedBy)

/-- Calls that change no key, bind no principal, and remember no id. -/
def AppOp.leavesKeys : AppOp τ → Bool
  | .authority (.bindCredential ..) | .authority (.keyMemory _ (.rememberPrefix ..)) => false
  | .apiKeys (.create _) | .apiKeys (.rotate ..) | .apiKeys (.updateIfVersion ..) => false
  | .commit _ => false
  | _ => true

/-- **The protocol of one process.** -/
inductive KeyStep : KeyPhase τ → (apiKeyPlatform τ).Step → KeyPhase τ → Prop where
  | plain {ph : KeyPhase τ} {step : (apiKeyPlatform τ).Step} (hop : step.op.leavesKeys = true) :
    KeyStep ph step ph
  | prefixKnown {ph : KeyPhase τ} {call : ApiKeyCall τ} {object : Nat} {keyPrefix : String}
    {res : Except JsError (Option String)} {before after : World τ} :
    KeyStep ph ⟨call, .authority (.keyMemory object (.knownId keyPrefix)), res, before, after⟩
      (match res with | .ok (some id) => .known id | _ => .idle none)
  | get {ph : KeyPhase τ} {call : ApiKeyCall τ} {id : String}
    {res : Except JsError (Option (ApiKey τ))} {before after : World τ} :
    KeyStep ph ⟨call, .apiKeys (.getKey id), res, before, after⟩
      (match res with | .ok (some key) => .read key none none | _ => .idle none)
  /-- The key it remembers is not there. -/
  | lose {call : ApiKeyCall τ} {id : String} {before after : World τ} :
    KeyStep (.known id) ⟨call, .apiKeys (.getKey id), .ok none, before, after⟩ .lost
  | stray {step : (apiKeyPlatform τ).Step} : KeyStep .lost step .lost
  | remember {ph : KeyPhase τ} {call : ApiKeyCall τ} {object : Nat} {keyPrefix id : String}
    {res : Except JsError Unit} {before after : World τ} (hid : ph.storedId = some id) :
    KeyStep ph ⟨call, .authority (.keyMemory object (.rememberPrefix keyPrefix id)),
      res, before, after⟩ ph
  | time {call : ApiKeyCall τ} {current : ApiKey τ} {time : Option τ}
    {ceiling : Option (ApiKey τ)} {t : τ} {before after : World τ} :
    KeyStep (.read current time ceiling) ⟨call, .authority .now, .ok t, before, after⟩
      (.read current (some t) ceiling)
  /-- The caller's own key. -/
  | caller {call : ApiKeyCall τ} {ceiling : Option (ApiKey τ)} {id : String} {key : ApiKey τ}
    {before after : World τ} (hid : IsCallerKey call id) :
    KeyStep (.idle ceiling) ⟨call, .apiKeys (.getKey id), .ok (some key), before, after⟩
      (.idle (some key))
  | callerOf {call : ApiKeyCall τ} {current : ApiKey τ} {time : Option τ}
    {ceiling : Option (ApiKey τ)} {id : String} {key : ApiKey τ} {before after : World τ}
    (hid : IsCallerKey call id) :
    KeyStep (.read current time ceiling)
      ⟨call, .apiKeys (.getKey id), .ok (some key), before, after⟩
      (.read current time (some key))
  | getAgain {call : ApiKeyCall τ} {current stored : ApiKey τ} {time : Option τ}
    {ceiling : Option (ApiKey τ)} {before after : World τ} :
    KeyStep (.read current time ceiling)
      ⟨call, .apiKeys (.getKey current.id), .ok (some stored), before, after⟩
      (.storing current stored ceiling)
  | write {call : ApiKeyCall τ} {current stored sent : ApiKey τ} {cleared : List ApiKeyField}
    {ceiling : Option (ApiKey τ)} {res : Except JsError (Option (ApiKey τ))}
    {before after : World τ} (hlive : current.revokedAt = none)
    (hwrite : stored = current → KeyWrite call ceiling current (mergeKey sent cleared current)) :
    KeyStep (.storing current stored ceiling)
      ⟨call, .apiKeys (.updateIfVersion current.id current.version sent cleared), res, before, after⟩
      (.read current none none)
  | create {call : ApiKeyCall τ} {ceiling : Option (ApiKey τ)} {key : ApiKey τ}
    {res : Except JsError Unit} {before after : World τ} (hkey : KeyCreation call ceiling key) :
    KeyStep (.idle ceiling) ⟨call, .apiKeys (.create key), res, before, after⟩
      (match res with | .ok _ => .issued key | .error _ => .idle ceiling)
  | rotate {call : ApiKeyCall τ} {current retired replacement : ApiKey τ} {t : τ}
    {ceiling : Option (ApiKey τ)} {res : Except JsError Unit} {before after : World τ}
    (hkeys : Rotation call t ceiling current retired replacement) :
    KeyStep (.read current (some t) ceiling)
      ⟨call, .apiKeys (.rotate current retired replacement), res, before, after⟩
      (match res with | .ok _ => .rotated current replacement | .error _ => .idle none)
  | mint {call : ApiKeyCall τ} {current : ApiKey τ} {time : Option τ}
    {ceiling : Option (ApiKey τ)} {claims : PrincipalClaims} {p : VerifiedPrincipal}
    {before after : World τ} (hlive : current.revokedAt = none)
    (hclaims : claims.credentialId = some current.id) :
    KeyStep (.read current time ceiling)
      ⟨call, .authority (.mint claims .apiKey), .ok p, before, after⟩ (.minted current p)
  | bind {call : ApiKeyCall τ} {current : ApiKey τ} {p : VerifiedPrincipal}
    {binding : CredentialBinding} {res : Except JsError Unit} {before after : World τ}
    (hbinding : binding.apiKeyId = current.id) :
    KeyStep (.minted current p)
      ⟨call, .authority (.bindCredential p binding), res, before, after⟩ (.bound current p)

/-- What the phase an entry point settles in says of its answer. -/
def KeyFinal : Except JsError (ApiKeyAnswer τ) → KeyPhase τ → Prop
  | .ok (.created answer), ph => ph = .lost ∨ ∃ key, ph = .issued key ∧ answer.id = key.id
  | .ok (.rotated (some answer)), ph => ph = .lost ∨ ∃ current replacement,
      ph = .rotated current replacement ∧ answer.replaces = current.id ∧ answer.id = replacement.id
  | .ok (.authenticated (some p)), ph => ph = .lost ∨ ∃ current, ph = .bound current p
  | _, _ => True

abbrev keyProtocol (τ : Type) [Timestamp τ] : Discipline (apiKeyPlatform τ) where
  Phase := KeyPhase τ
  start _ := .idle none
  next := KeyStep
  final _ := KeyFinal

/-! ## Conformance -/

section conformance

variable {call : ApiKeyCall τ} {ph : KeyPhase τ} {α β : Type}

/-- Calls that leave every phase as it is. -/
def quietKeyCalls : Set (AppOp τ) := {op | op.leavesKeys = true}

theorem quietKeys_idle (call : ApiKeyCall τ) (ph : KeyPhase τ) :
    quietKeyCalls ⊆ (keyProtocol τ).Idle call ph :=
  fun _ hop _ _ _ _ _ => .plain hop

omit [Timestamp τ] in
theorem gateway_quietKeys : (gatewayCalls : Set (AppOp τ)) ⊆ quietKeyCalls := by
  rintro op ⟨o, rfl, ho⟩
  cases o <;> first | rfl | cases ho

theorem gateway_keys (call : ApiKeyCall τ) (ph : KeyPhase τ) :
    gatewayCalls ⊆ (keyProtocol τ).Idle call ph :=
  gateway_quietKeys.trans (quietKeys_idle call ph)

omit [Timestamp τ] in
theorem uses_quietKeys {t : Svc τ α} (h : Task.Uses (S := services τ) consultCalls t) :
    Task.Uses (S := services τ) quietKeyCalls t :=
  h.mono (consultCalls_gateway.trans gateway_quietKeys)

/-- The task keeps to the protocol and resolves with `Q` of its value and phase. -/
def KeepsTo (call : ApiKeyCall τ) (t : Svc τ α) (ph : KeyPhase τ) (Q : α → KeyPhase τ → Prop) :
    Prop :=
  (keyProtocol τ).Conforms call t ph (fun r ph' => ∀ a, r = .ok a → Q a ph')

namespace KeepsTo

variable {Q Q' : α → KeyPhase τ → Prop} {R : β → KeyPhase τ → Prop} {t : Svc τ α}

theorem mono (ht : KeepsTo call t ph Q) (h : ∀ a ph', Q a ph' → Q' a ph') :
    KeepsTo call t ph Q' :=
  Discipline.Conforms.mono (fun _ ph' hq a hr => h a ph' (hq a hr)) ht

theorem bind {f : α → Svc τ β} (ht : KeepsTo call t ph Q)
    (hf : ∀ a ph', Q a ph' → KeepsTo call (f a) ph' R) : KeepsTo call (t.bind f) ph R := by
  refine Discipline.Conforms.bind ht (fun a ph' hq => hf a ph' (hq a rfl)) ?_
  intro e ph' _ b h
  cases h

/-- How the task settles is only observed. -/
theorem attempt (ht : KeepsTo call t ph Q) :
    KeepsTo call t.attempt ph (fun r ph' => ∀ a, r = .ok a → Q a ph') := by
  refine Discipline.Conforms.settleWith (fun r ph' hq => ?_) ht
  intro r' hr' a ha
  obtain rfl := Except.ok.inj hr'
  exact hq a ha

theorem pure {a : α} (h : Q a ph) : KeepsTo call (pure a) ph Q := by
  intro b hb
  obtain rfl := Except.ok.inj hb
  exact h

theorem throw (e : JsError) : KeepsTo call (throw e : Svc τ α) ph Q := by
  intro a h
  cases h

/-- A check that may throw, and what follows. -/
theorem check {r : Except JsError α} {f : α → Svc τ β}
    (hf : ∀ a, r = .ok a → KeepsTo call (f a) ph R) :
    KeepsTo call ((AppPort.check r).bind f) ph R := by
  cases r with
  | ok a => exact hf a rfl
  | error e => exact throw e

/-- Quiet calls leave the phase. -/
theorem quiet (ht : Task.Uses (S := services τ) quietKeyCalls t) :
    KeepsTo call t ph (fun _ ph' => ph' = ph) :=
  Discipline.Conforms.mono (fun _ _ h _ _ => h)
    (Discipline.Conforms.of_idle (ht.mono (quietKeys_idle call ph)))

theorem quiet_bind {f : α → Svc τ β} (ht : Task.Uses (S := services τ) quietKeyCalls t)
    (hf : ∀ a, KeepsTo call (f a) ph R) : KeepsTo call (t.bind f) ph R := by
  refine (quiet ht).bind ?_
  intro a ph' hph
  subst hph
  exact hf a

/-- Nothing is asked of a process that is lost. -/
theorem lost : (t : Svc τ α) → KeepsTo call t .lost (fun _ ph' => ph' = .lost)
  | .settled _ => fun _ _ => rfl
  | .await _ k => fun _ _ res _ _ => ⟨.lost, .stray, lost (k res)⟩

/-- One call and what follows its value. -/
theorem await_bind (op : AppOp τ) {f : op.Out τ → Svc τ β}
    (h : ∀ choice before res after, AppOp.exec op choice before = some (res, after) →
      ∃ ph', KeyStep ph ⟨call, op, res, before, after⟩ ph' ∧
        ∀ a, res = .ok a → KeepsTo call (f a) ph' R) :
    KeepsTo call ((Task.perform (S := services τ) op).bind f) ph R := by
  refine Discipline.Conforms.await_bind ?_
  intro choice before res after hexec
  obtain ⟨ph', hnext, hrest⟩ := h choice before res after hexec
  refine ⟨ph', hnext, ?_⟩
  cases res with
  | ok a => exact hrest a rfl
  | error e =>
    intro b hb
    cases hb

end KeepsTo

/-! ### What is quiet -/

namespace ApiKeyService

omit [Timestamp τ] in
theorem uses_audit (type : String) (apiKey : ApiKey τ) (principalId : String) (timestamp : τ)
    (changes : Option (List String)) (related : Option String) :
    Task.Uses (S := services τ) quietKeyCalls
      (audit type apiKey principalId timestamp changes related) :=
  Task.Uses.bind (uses_quietKeys consults_randomUUID) fun _ => Task.uses_perform rfl

omit [Timestamp τ] in
theorem uses_recordAuthEvent (apiKey : ApiKey τ) (result : String) (timestamp : τ) :
    Task.Uses (S := services τ) quietKeyCalls (recordAuthEvent apiKey result timestamp) :=
  Task.Uses.bind (uses_quietKeys consults_randomUUID) fun _ => Task.uses_perform rfl

variable (service : ApiKeyService)

omit [Timestamp τ] in
theorem uses_rememberCreated (apiKey : ApiKey τ) :
    Task.Uses (S := services τ) quietKeyCalls (service.rememberCreated apiKey) := by
  unfold rememberCreated
  split
  · exact Task.uses_perform rfl
  · trivial

omit [Timestamp τ] in
theorem uses_issue (input : IssueInput τ) :
    Task.Uses (S := services τ) quietKeyCalls (service.issue input) := by
  unfold issue
  refine Task.Uses.bind (Task.uses_perform rfl) fun hex => ?_
  refine Task.Uses.bind (Task.uses_perform rfl) fun bytes => ?_
  refine Task.Uses.bind (uses_quietKeys consults_randomUUID) fun id => ?_
  refine Task.Uses.bind (Task.uses_perform rfl) fun salt => ?_
  exact Task.Uses.bind (uses_quietKeys consults_now) fun createdAt => trivial

/-- What is issued is fresh, and is what was asked for. -/
structure IssuedFor (input : IssueInput τ) (key : ApiKey τ) : Prop where
  fresh : FreshKey key
  restrictions : key.restrictions = input.restrictions
  expiresAt : key.expiresAt = input.expiresAt
  rotatedFrom : key.rotatedFrom = keepPresent input.rotatedFrom

theorem keeps_issue (input : IssueInput τ) :
    KeepsTo call (service.issue input) ph (fun issued ph' => ph' = ph ∧ IssuedFor input issued.1) := by
  unfold issue
  refine KeepsTo.quiet_bind (Task.uses_perform rfl) fun hex => ?_
  refine KeepsTo.quiet_bind (Task.uses_perform rfl) fun bytes => ?_
  refine KeepsTo.await_bind (.authority .uuid) ?_
  intro choice before res after hexec
  -- a drawn id has something in it
  obtain ⟨-, id, hid, rfl⟩ := AuthorityOp.exec_uuid hexec
  refine ⟨ph, .plain rfl, ?_⟩
  intro id' hid'
  obtain rfl := Except.ok.inj hid'
  refine KeepsTo.quiet_bind (Task.uses_perform rfl) fun salt => ?_
  refine KeepsTo.quiet_bind (uses_quietKeys consults_now) fun createdAt => ?_
  exact KeepsTo.pure ⟨rfl, ⟨hid, rfl, rfl, rfl⟩, rfl, rfl, rfl⟩

/-! ### Reading -/

theorem keeps_ownKey (tenantId id : String) (allowLegacy : Bool) :
    KeepsTo call (service.ownKey tenantId id allowLegacy) ph
      (fun found ph' => ∀ current, found = some current → ph' = .read current none none) := by
  unfold ownKey
  refine KeepsTo.await_bind (.apiKeys (.getKey id)) ?_
  intro choice before res after _
  refine ⟨_, .get, ?_⟩
  intro found hfound
  subst hfound
  refine KeepsTo.pure ?_
  intro current hcurrent
  rw [(Option.filter_eq_some_iff.mp hcurrent).1]

/-- The caller's ceiling, read from a phase that can keep it. -/
theorem keeps_assertWithinCaller (f : Option (ApiKey τ) → KeyPhase τ)
    (hcaller : ∀ ceiling id key before after, IsCallerKey call id → KeyStep (f ceiling)
      ⟨call, .apiKeys (.getKey id), .ok (some key), before, after⟩ (f (some key)))
    {p : VerifiedPrincipal} {hasScopes : Bool} (hp : call.entry.caller = .object p hasScopes)
    (ceiling : Option (ApiKey τ)) (restrictions : Option ApiKeyRestrictions) (expiresAt : Option τ) :
    KeepsTo call (assertWithinCaller p restrictions expiresAt) (f ceiling)
      (fun _ ph' => ∃ ceiling', ph' = f ceiling' ∧ Covers call ceiling' restrictions expiresAt) := by
  have hnone : (∀ id, ¬ IsCallerKey call id) → ∃ ceiling', f ceiling = f ceiling' ∧
      Covers call ceiling' restrictions expiresAt :=
    fun hno => ⟨ceiling, rfl, fun id hid => absurd hid (hno id)⟩
  unfold assertWithinCaller
  split
  · next credentialId hby hid =>
    have hkey : IsCallerKey call credentialId := ⟨p, hasScopes, hp, hby, hid⟩
    refine KeepsTo.await_bind (.apiKeys (.getKey credentialId)) ?_
    intro choice before res after _
    match res with
    | .error e => exact ⟨f ceiling, .plain rfl, fun _ h => by cases h⟩
    | .ok none =>
      refine ⟨f ceiling, .plain rfl, fun found hfound => ?_⟩
      obtain rfl := Except.ok.inj hfound
      exact KeepsTo.throw _
    | .ok (some callerKey) =>
      refine ⟨_, hcaller ceiling credentialId callerKey before after hkey, fun found hfound => ?_⟩
      obtain rfl := Except.ok.inj hfound
      intro u hwithin
      refine ⟨some callerKey, rfl, fun id hid' => ⟨callerKey, rfl, hwithin⟩⟩
  · next hno =>
    refine KeepsTo.pure (hnone fun id hid => ?_)
    obtain ⟨q, scopes, hq, hby, hcredential⟩ := hid
    rw [hp] at hq
    cases hq
    exact hno id hby hcredential

/-! ### Writing -/

/-- The store methods: one more read, and a write over the record that was read. -/
theorem keeps_overwrite {current : ApiKey τ} {time : Option τ} {ceiling : Option (ApiKey τ)}
    {write : ApiKey τ → ApiKey τ × List ApiKeyField} (hlive : current.revokedAt = none)
    (hwrite : KeyWrite call ceiling current (mergeKey (write current).1 (write current).2 current)) :
    KeepsTo call (FeltDbApiKeyStore.overwrite current.id current.version write)
      (.read current time ceiling)
      (fun _ ph' => ∃ time' ceiling', ph' = .read current time' ceiling') := by
  unfold FeltDbApiKeyStore.overwrite
  refine KeepsTo.await_bind (.apiKeys (.getKey current.id)) ?_
  intro choice before res after _
  match res with
  | .error e => exact ⟨_, .plain rfl, fun _ h => by cases h⟩
  | .ok none =>
    refine ⟨_, .plain rfl, fun found hfound => ?_⟩
    obtain rfl := Except.ok.inj hfound
    exact KeepsTo.pure ⟨time, ceiling, rfl⟩
  | .ok (some stored) =>
    refine ⟨_, .getAgain, fun found hfound => ?_⟩
    obtain rfl := Except.ok.inj hfound
    refine Discipline.conforms_perform ?_
    intro choice before res after _
    refine ⟨_, .write hlive ?_, fun _ _ => ⟨none, none, rfl⟩⟩
    rintro rfl
    exact hwrite

theorem keeps_replace {current next : ApiKey τ} {time : Option τ} {ceiling : Option (ApiKey τ)}
    (hlive : current.revokedAt = none) (hversion : current.version = next.version)
    (hwrite : KeyWrite call ceiling current next) :
    KeepsTo call (FeltDbApiKeyStore.replace current.id current.version next)
      (.read current time ceiling)
      (fun _ ph' => ∃ time' ceiling', ph' = .read current time' ceiling') := by
  refine keeps_overwrite hlive ?_
  rw [mergeKey_replace hversion]
  exact hwrite

/-- A record with fields added is what is written. -/
theorem keeps_extend {current next : ApiKey τ} {time : Option τ} {ceiling : Option (ApiKey τ)}
    {write : ApiKey τ → ApiKey τ × List ApiKeyField} (hlive : current.revokedAt = none)
    (hsent : write current = (next, []))
    (hfields : ∀ field, current.has field = true → next.has field = true)
    (hversion : current.version = next.version) (hwrite : KeyWrite call ceiling current next) :
    KeepsTo call (FeltDbApiKeyStore.overwrite current.id current.version write)
      (.read current time ceiling)
      (fun _ ph' => ∃ time' ceiling', ph' = .read current time' ceiling') := by
  refine keeps_overwrite hlive ?_
  rw [hsent, mergeKey_extends hfields hversion]
  exact hwrite

theorem keeps_storeRevoke {current : ApiKey τ} {time : Option τ} {ceiling : Option (ApiKey τ)}
    (hlive : current.revokedAt = none) (t : τ) (revokedBy : Option String) :
    KeepsTo call (FeltDbApiKeyStore.revoke current.id current.version t revokedBy)
      (.read current time ceiling)
      (fun _ ph' => ∃ time' ceiling', ph' = .read current time' ceiling') := by
  refine keeps_extend hlive rfl ?_ rfl (.revoked t revokedBy)
  intro field hfield
  cases field <;> simp_all [ApiKey.has]

theorem keeps_recordLastUsed {current : ApiKey τ} {time : Option τ} {ceiling : Option (ApiKey τ)}
    (hlive : current.revokedAt = none) (t : τ) :
    KeepsTo call (FeltDbApiKeyStore.recordLastUsed current.id current.version t)
      (.read current time ceiling)
      (fun _ ph' => ∃ time' ceiling', ph' = .read current time' ceiling') := by
  refine keeps_extend hlive rfl ?_ rfl (.used t)
  intro field hfield
  cases field <;> simp_all [ApiKey.has]

/-! ### Entry points -/

/-- The caller that passes is the one of the entry point. -/
theorem keeps_requireVerifiedPrincipal (caller : PrincipalInput) :
    KeepsTo call (requireVerifiedPrincipal (τ := τ) caller) ph
      (fun p ph' => ph' = ph ∧ ∃ hasScopes, caller = .object p hasScopes) := by
  unfold requireVerifiedPrincipal
  split
  · next p hasScopes =>
    refine KeepsTo.quiet_bind (Task.uses_perform rfl) fun verified => ?_
    split
    · exact KeepsTo.pure ⟨rfl, hasScopes, rfl⟩
    · exact KeepsTo.throw _
  · exact KeepsTo.throw _

/-- Around an effect the gateway is quiet. -/
theorem keeps_execute {gateway : ServiceGateway} {name : String} {input : PrincipalInput}
    {resource : ServiceResource} {options : ExecuteOptions}
    {effect : ServiceExecutionContext τ → EffectTools τ → Svc τ α} {Q : α → KeyPhase τ → Prop}
    (heffect : ∀ context tools, KeepsTo call (effect context tools) ph Q) :
    KeepsTo call (gateway.execute name input resource options effect) ph Q := by
  refine conforms_execute (gateway_keys call) (fun e a h => by cases h) heffect
    (fun _ _ h => h) ?_ (fun _ _ h => h)
  intro a ph' e _ _ b h
  cases h

/-- Hints and audit records conflict with nothing. -/
theorem conforms_storeCreated {key : ApiKey τ} {ceiling : Option (ApiKey τ)}
    (hkey : KeyCreation call ceiling key) (secret createdBy : String) :
    (keyProtocol τ).Conforms call (service.storeCreated key secret createdBy) (.idle ceiling)
      (fun r ph' => match r with
        | .ok answer => ph' = .issued key ∧ answer.id = key.id
        | .error e => e.isConflict = true → ph' = .idle ceiling) := by
  have hremember : (keyProtocol τ).Conforms call (service.rememberCreated key) (.issued key)
      (fun r ph' => ph' = .issued key ∧ ∃ u, r = .ok u) := by
    unfold rememberCreated
    split
    · refine Discipline.conforms_perform fun choice before res after hexec => ?_
      exact ⟨_, .plain rfl, rfl, _, (computed_ok hexec).1⟩
    · exact ⟨rfl, (), rfl⟩
  have haudit : (keyProtocol τ).Conforms call
      (audit "api_key.created" key createdBy key.createdAt) (.issued key)
      (fun r ph' => ph' = .issued key ∧ ∀ e, r = .error e → e.isConflict = false) := by
    unfold audit
    refine Discipline.Conforms.await_bind ?_
    intro choice before res after hexec
    obtain ⟨-, id, -, rfl⟩ := AuthorityOp.exec_uuid hexec
    refine ⟨_, .plain rfl, ?_⟩
    refine Discipline.conforms_perform fun choice before res after hexec => ?_
    refine ⟨_, .plain rfl, rfl, ?_⟩
    intro e he
    subst he
    rcases stored_cases hexec with ⟨hres, -⟩ | ⟨message, hres, -⟩
    · cases hres
    · cases hres
      rfl
  unfold storeCreated
  refine Discipline.Conforms.await_bind ?_
  intro choice before res after _
  refine ⟨_, .create hkey, ?_⟩
  match res with
  | .error e => exact fun _ => rfl
  | .ok () =>
    refine Discipline.Conforms.await_bind ?_
    intro choice before res after hexec
    obtain ⟨rfl, -⟩ := computed_ok hexec
    refine ⟨_, .remember rfl, ?_⟩
    refine hremember.bind ?_ ?_
    · rintro - ph' ⟨rfl, -⟩
      refine haudit.bind ?_ ?_
      · rintro - ph' ⟨rfl, -⟩
        exact ⟨rfl, rfl⟩
      · rintro e ph' ⟨-, he⟩ hconflict
        rw [he e rfl] at hconflict
        cases hconflict
    · rintro e ph' ⟨-, u, hu⟩
      cases hu

theorem keeps_createUnique {input : IssueInput τ} {ceiling : Option (ApiKey τ)}
    (hcaller : HasCaller call) (hfrom : input.rotatedFrom = none)
    (hcovered : Covers call ceiling input.restrictions input.expiresAt)
    (hexpiry : ∀ t, input.expiresAt = some t → call.entry.givenExpiry = some t) :
    (attempts : Nat) → KeepsTo call (service.createUnique input attempts) (.idle ceiling)
      (fun answer ph' => ∃ key, ph' = .issued key ∧ answer.id = key.id)
  | 0 => KeepsTo.throw _
  | attempts + 1 => by
    unfold createUnique
    refine (service.keeps_issue input).bind ?_
    rintro ⟨key, secret⟩ ph' ⟨rfl, hissued⟩
    have hkey : KeyCreation call ceiling key := by
      refine ⟨hcaller, hissued.fresh, ?_, ?_, ?_⟩
      · rw [hissued.rotatedFrom, hfrom]
        rfl
      · rw [hissued.restrictions, hissued.expiresAt]
        exact hcovered
      · intro t ht
        exact hexpiry t (hissued.expiresAt ▸ ht)
    refine Discipline.Conforms.tryCatch
      (service.conforms_storeCreated hkey secret input.createdBy) ?_ ?_
    · intro answer ph' hstored answer' h
      obtain rfl := Except.ok.inj h
      exact ⟨key, hstored.1, hstored.2⟩
    · intro error ph' herror
      split
      · next hconflict =>
        obtain rfl := herror hconflict
        exact keeps_createUnique hcaller hfrom hcovered hexpiry attempts
      · exact KeepsTo.throw error

theorem keeps_createApiKey {input : CreateApiKeyInput τ} {caller : PrincipalInput}
    (hentry : call.entry = .createApiKey input caller) :
    KeepsTo call (service.createApiKey input caller) (.idle none)
      (fun answer ph' => ∃ key, ph' = .issued key ∧ answer.id = key.id) := by
  unfold createApiKey
  split
  · exact KeepsTo.throw _
  refine (keeps_requireVerifiedPrincipal caller).bind ?_
  rintro p ph' ⟨rfl, hasScopes, rfl⟩
  refine KeepsTo.check fun _ _ => ?_
  refine KeepsTo.check fun tenantId _ => ?_
  refine KeepsTo.check fun restrictions _ => ?_
  refine KeepsTo.check fun expiresAt hexpiresAt => ?_
  refine KeepsTo.check fun gateway _ => ?_
  refine keeps_execute fun context tools => ?_
  have hcaller : call.entry.caller = .object p hasScopes := by rw [hentry]; rfl
  refine (keeps_assertWithinCaller .idle (fun _ _ _ _ _ hid => .caller hid) hcaller
    none restrictions expiresAt).bind ?_
  rintro - ph' ⟨ceiling, rfl, hcovered⟩
  refine KeepsTo.check fun name _ => ?_
  refine service.keeps_createUnique ⟨p, hasScopes, hcaller⟩ rfl hcovered ?_ MAX_CREATE_ATTEMPTS
  intro t ht
  obtain rfl : expiresAt = some t := ht
  rw [hentry]
  -- only a valid date gets through `isoDate`
  obtain ⟨tenant, name, scopes, given, expiry, createdBy⟩ := input
  match expiry with
  | .undefined => cases hexpiresAt
  | .null => cases hexpiresAt
  | .date none => cases hexpiresAt
  | .date (some t') =>
    cases hexpiresAt
    rfl

/-- The ceiling is read where it is at stake. -/
theorem keeps_assertUpdateWithinCaller {p : VerifiedPrincipal} {hasScopes : Bool}
    (hcaller : call.entry.caller = .object p hasScopes) {current : ApiKey τ}
    (changes : ApiKeyChanges τ) (next : ApiKey τ) :
    KeepsTo call (assertUpdateWithinCaller p changes next) (.read current none none)
      (fun _ ph' => ∃ ceiling, ph' = .read current none ceiling ∧
        (changes.touchesCeiling = true → Covers call ceiling next.restrictions next.expiresAt)) := by
  unfold assertUpdateWithinCaller
  split
  · refine (keeps_assertWithinCaller (.read current none)
      (fun _ _ _ _ _ hid => .callerOf hid) hcaller none _ _).mono ?_
    rintro - ph' ⟨ceiling, rfl, hcovered⟩
    exact ⟨ceiling, rfl, fun _ => hcovered⟩
  · next hno => exact KeepsTo.pure ⟨none, rfl, fun h => absurd h hno⟩

theorem keeps_update {p : VerifiedPrincipal} {hasScopes : Bool}
    (hcaller : call.entry.caller = .object p hasScopes) {changes : ApiKeyChanges τ}
    (hexpiry : ∀ t, changes.expiresAt = some (some t) → call.entry.givenExpiry = some t)
    (tenantId id : String) : (attempts : Nat) → (ph : KeyPhase τ) →
    KeepsTo call (service.update tenantId id changes p attempts) ph (fun _ _ => True)
  | 0, _ => KeepsTo.throw _
  | attempts + 1, ph => by
    unfold update
    refine (service.keeps_ownKey tenantId id false).bind ?_
    intro found ph' hfound
    match found with
    | none => exact KeepsTo.pure trivial
    | some current =>
      obtain rfl := hfound current rfl
      dsimp only
      split
      · exact KeepsTo.throw _
      next hlive =>
      have hlive : current.revokedAt = none := Option.not_isSome_iff_eq_none.mp hlive
      refine KeepsTo.quiet_bind (uses_quietKeys consults_now) fun updatedAt => ?_
      refine (keeps_assertUpdateWithinCaller hcaller changes _).bind ?_
      rintro - ph' ⟨ceiling, rfl, hcovers⟩
      have hwrite : KeyWrite call ceiling current
          (changes.applied current updatedAt p.principalId) :=
        .updated changes updatedAt p.principalId ⟨p, hasScopes, hcaller⟩ hcovers hexpiry
      have hversion : current.version = (changes.applied current updatedAt p.principalId).version :=
        rfl
      refine (keeps_replace hlive hversion hwrite).bind ?_
      intro result ph' _
      match result with
      | none => exact keeps_update hcaller hexpiry tenantId id attempts ph'
      | some result =>
        dsimp only
        refine KeepsTo.quiet_bind (Task.uses_perform rfl) fun _ => ?_
        refine KeepsTo.quiet_bind (uses_audit ..) fun _ => ?_
        refine KeepsTo.quiet_bind (uses_quietKeys consults_now) fun t => ?_
        exact KeepsTo.pure trivial

omit [Timestamp τ] in
/-- The expiry of accepted changes was handed over. -/
theorem expiresAt_of_ofInput {localeCompare : String → String → Ordering}
    {input : UpdateApiKeyInput τ} {changes : ApiKeyChanges τ} {t : τ}
    (h : ApiKeyChanges.ofInput localeCompare input = .ok changes) (ht : changes.expiresAt = some (some t)) :
    input.expiresAt = .date (some t) := by
  unfold ApiKeyChanges.ofInput at h
  simp only [bind, Except.bind, pure, Except.pure, throw, throwThe, MonadExceptOf.throw] at h
  split at h
  · cases h
  split at h
  · cases h
  split at h
  · cases h
  next expiresAt hexpiresAt =>
  split at h
  · cases h
  cases h
  obtain rfl : expiresAt = some (some t) := ht
  cases hinput : input.expiresAt with
  | undefined =>
    rw [hinput] at hexpiresAt
    cases hexpiresAt
  | null =>
    rw [hinput] at hexpiresAt
    cases hexpiresAt
  | date value =>
    rw [hinput] at hexpiresAt
    cases value with
    | none => cases hexpiresAt
    | some t' =>
      cases hexpiresAt
      rfl

theorem keeps_updateApiKey {input : UpdateApiKeyInput τ} {caller : PrincipalInput}
    (hentry : call.entry = .updateApiKey input caller) :
    KeepsTo call (service.updateApiKey input caller) ph (fun _ _ => True) := by
  unfold updateApiKey
  refine (keeps_requireVerifiedPrincipal caller).bind ?_
  rintro p ph' ⟨rfl, hasScopes, rfl⟩
  refine KeepsTo.check fun _ _ => ?_
  refine KeepsTo.check fun tenantId _ => ?_
  refine KeepsTo.check fun id _ => ?_
  refine KeepsTo.check fun changes hchanges => ?_
  refine KeepsTo.check fun gateway _ => ?_
  refine keeps_execute fun context tools => ?_
  have hcaller : call.entry.caller = .object p hasScopes := by rw [hentry]; rfl
  refine service.keeps_update hcaller ?_ tenantId id MAX_UPDATE_ATTEMPTS ph'
  intro t ht
  obtain ⟨tenant, id, name, restrictions, expiry, raw⟩ := input
  obtain rfl : expiry = .date (some t) := expiresAt_of_ofInput hchanges ht
  rw [hentry]
  rfl

theorem keeps_rotate {p : VerifiedPrincipal} {hasScopes : Bool}
    (hcaller : call.entry.caller = .object p hasScopes) {overlapSeconds : Nat}
    (hoverlap : overlapSeconds ≤ MAX_OVERLAP_SECONDS) (tenantId id : String) :
    (attempts : Nat) → (ph : KeyPhase τ) →
    KeepsTo call (service.rotate tenantId id overlapSeconds p attempts) ph
      (fun answer ph' => ∀ rotated, answer = some rotated → ∃ current replacement,
        ph' = .rotated current replacement ∧ rotated.replaces = current.id ∧
          rotated.id = replacement.id)
  | 0, _ => KeepsTo.throw _
  | attempts + 1, ph => by
    unfold rotate
    refine (service.keeps_ownKey tenantId id false).bind ?_
    intro found ph' hfound
    match found with
    | none => exact KeepsTo.pure fun rotated h => by cases h
    | some current =>
      obtain rfl := hfound current rfl
      dsimp only
      refine KeepsTo.await_bind (.authority .now) ?_
      intro choice before res after hexec
      obtain ⟨rfl, -⟩ := computed_ok hexec
      refine ⟨_, .time, ?_⟩
      intro t ht
      split
      · exact KeepsTo.throw _
      next hunrotated =>
      split
      · exact KeepsTo.throw _
      next hactive =>
      have hlive := revokedAt_of_active (not_not.mp hactive)
      refine (keeps_assertWithinCaller (.read current (some before.clock))
        (fun _ _ _ _ _ hid => .callerOf hid) hcaller none _ _).bind ?_
      rintro - ph' ⟨ceiling, rfl, hcovered⟩
      refine KeepsTo.check fun overlapEnd hend => ?_
      have hafter : Timestamp.after t (overlapSeconds * 1000) = some overlapEnd := by
        unfold laterThan at hend
        split at hend
        · next e he => exact (Except.ok.inj hend) ▸ he
        · cases hend
      refine (service.keeps_issue _).bind ?_
      rintro ⟨replacement, secret⟩ ph' ⟨rfl, hissued⟩
      obtain rfl := Except.ok.inj ht
      have hrotation : Rotation call before.clock ceiling current
          (retire current replacement.id before.clock overlapEnd overlapSeconds p.principalId)
          replacement :=
        ⟨⟨p, hasScopes, hcaller⟩, hlive, Bool.eq_false_of_not_eq_true hunrotated, hissued.fresh,
          hissued.rotatedFrom, hissued.restrictions, hissued.expiresAt, hcovered, overlapSeconds,
          overlapEnd, _, hoverlap, hafter, rfl⟩
      refine KeepsTo.bind (Q := fun r ph' => ∀ a, r = .ok a → ph' = .rotated current replacement)
        ?_ ?_
      · refine KeepsTo.attempt (Q := fun _ ph' => ph' = .rotated current replacement) ?_
        refine Discipline.conforms_perform fun choice before res after _ => ?_
        refine ⟨_, .rotate hrotation, ?_⟩
        rintro a rfl
        rfl
      intro outcome ph' houtcome
      match outcome with
      | .error error =>
        dsimp only
        split
        · exact keeps_rotate hcaller hoverlap tenantId id attempts ph'
        · exact KeepsTo.throw error
      | .ok u =>
        obtain rfl := houtcome u rfl
        dsimp only
        have hreport : KeepsTo call (service.reportRotation current
            (retire current replacement.id before.clock overlapEnd overlapSeconds p.principalId)
            replacement before.clock overlapSeconds p.principalId) (.rotated current replacement)
            (fun _ ph' => ph' = .rotated current replacement) := by
          unfold reportRotation
          refine KeepsTo.await_bind (.authority (.keyMemory _ (.rememberPrefix _ _))) ?_
          intro choice before res after _
          refine ⟨_, .remember rfl, fun _ _ => ?_⟩
          refine KeepsTo.quiet ?_
          refine Task.Uses.bind (service.uses_rememberCreated _) fun _ => ?_
          refine Task.Uses.bind (Task.uses_perform rfl) fun _ => ?_
          refine Task.Uses.bind (uses_audit ..) fun _ => ?_
          refine Task.Uses.bind (uses_audit ..) fun _ => ?_
          split
          · exact uses_audit ..
          · trivial
        refine hreport.bind ?_
        rintro - ph' rfl
        refine KeepsTo.pure fun rotated h => ?_
        obtain rfl := Option.some.inj h
        exact ⟨current, replacement, rfl, rfl, rfl⟩

/-- An accepted overlap is at most a week. -/
theorem le_of_overlapOf {value : JsValue} {n : Nat} (h : overlapOf value = .ok n) :
    n ≤ MAX_OVERLAP_SECONDS := by
  unfold overlapOf at h
  split at h
  · cases h
    exact Nat.zero_le _
  · cases h
    exact Nat.zero_le _
  · next i =>
    split at h
    · next hi =>
      cases h
      have hle := hi.2
      omega
    · cases h
  · cases h

theorem keeps_rotateApiKey {input : RotateApiKeyInput} {caller : PrincipalInput}
    (hentry : call.entry = .rotateApiKey input caller) :
    KeepsTo call (service.rotateApiKey input caller) ph
      (fun answer ph' => ∀ rotated, answer = some rotated → ∃ current replacement,
        ph' = .rotated current replacement ∧ rotated.replaces = current.id ∧
          rotated.id = replacement.id) := by
  unfold rotateApiKey
  refine (keeps_requireVerifiedPrincipal caller).bind ?_
  rintro p ph' ⟨rfl, hasScopes, rfl⟩
  refine KeepsTo.check fun _ _ => ?_
  refine KeepsTo.check fun tenantId _ => ?_
  refine KeepsTo.check fun id _ => ?_
  refine KeepsTo.check fun overlapSeconds hoverlap => ?_
  refine KeepsTo.check fun gateway _ => ?_
  refine keeps_execute fun context tools => ?_
  have hcaller : call.entry.caller = .object p hasScopes := by rw [hentry]; rfl
  exact service.keeps_rotate hcaller (le_of_overlapOf hoverlap) tenantId id MAX_UPDATE_ATTEMPTS ph'

theorem keeps_revoke (tenantId id revokedBy : String) : (attempts : Nat) → (ph : KeyPhase τ) →
    KeepsTo call (service.revoke (τ := τ) tenantId id revokedBy attempts) ph (fun _ _ => True)
  | 0, _ => KeepsTo.throw _
  | attempts + 1, ph => by
    unfold revoke
    refine (service.keeps_ownKey tenantId id true).bind ?_
    intro found ph' hfound
    match found with
    | none => exact KeepsTo.pure trivial
    | some current =>
      obtain rfl := hfound current rfl
      dsimp only
      split
      · exact KeepsTo.quiet_bind (uses_quietKeys consults_now) fun t => KeepsTo.pure trivial
      next hlive =>
      refine KeepsTo.quiet_bind (uses_quietKeys consults_now) fun revokedAt => ?_
      refine (keeps_storeRevoke (Option.not_isSome_iff_eq_none.mp hlive) revokedAt _).bind ?_
      intro result ph' _
      match result with
      | none => exact keeps_revoke tenantId id revokedBy attempts ph'
      | some result =>
        dsimp only
        refine KeepsTo.quiet_bind (uses_audit ..) fun _ => ?_
        refine KeepsTo.quiet_bind (Task.uses_perform rfl) fun _ => ?_
        exact KeepsTo.quiet_bind (uses_quietKeys consults_now) fun t => KeepsTo.pure trivial

theorem keeps_revokeApiKey (input : RevokeApiKeyInput) (caller : PrincipalInput) :
    KeepsTo call (service.revokeApiKey (τ := τ) input caller) ph (fun _ _ => True) := by
  unfold revokeApiKey
  refine (keeps_requireVerifiedPrincipal caller).bind ?_
  rintro p ph' ⟨rfl, -⟩
  refine KeepsTo.check fun _ _ => ?_
  refine KeepsTo.check fun tenantId _ => ?_
  refine KeepsTo.check fun gateway _ => ?_
  exact keeps_execute fun context tools => service.keeps_revoke _ _ _ _ ph'

theorem keeps_revokeEach (tenantId revokedBy : String) : (keys : List (ApiKey τ)) →
    (ph : KeyPhase τ) →
    KeepsTo call (service.revokeEach tenantId revokedBy keys) ph (fun _ _ => True)
  | [], _ => KeepsTo.pure trivial
  | key :: rest, ph => by
    unfold revokeEach
    refine (service.keeps_revoke tenantId key.id revokedBy _ ph).bind fun _ ph' _ => ?_
    refine (keeps_revokeEach tenantId revokedBy rest ph').bind fun _ ph'' _ => ?_
    exact KeepsTo.pure trivial

theorem keeps_revokeAllApiKeys (input : RevokeAllApiKeysInput) (caller : PrincipalInput) :
    KeepsTo call (service.revokeAllApiKeys (τ := τ) input caller) ph (fun _ _ => True) := by
  unfold revokeAllApiKeys
  refine (keeps_requireVerifiedPrincipal caller).bind ?_
  rintro p ph' ⟨rfl, -⟩
  refine KeepsTo.check fun _ _ => ?_
  refine KeepsTo.check fun tenantId _ => ?_
  refine KeepsTo.check fun createdBy _ => ?_
  refine KeepsTo.check fun gateway _ => ?_
  refine keeps_execute fun context tools => ?_
  refine KeepsTo.quiet_bind (Task.uses_perform rfl) fun keys => ?_
  exact service.keeps_revokeEach _ _ _ ph'

/-! ### Authentication -/

/-- The process read this record, or is lost. -/
def Found (found : Option (ApiKey τ)) (ph : KeyPhase τ) : Prop :=
  ph = .lost ∨ ∀ current, found = some current → ∃ time ceiling, ph = .read current time ceiling

omit [Timestamp τ] in
theorem Found.none (ph : KeyPhase τ) : Found (τ := τ) none ph := .inr fun _ h => by cases h

omit [Timestamp τ] in
theorem Found.read (current : ApiKey τ) (time : Option τ) (ceiling : Option (ApiKey τ)) :
    Found (some current) (.read current time ceiling) :=
  .inr fun _ h => by
    obtain rfl := Option.some.inj h
    exact ⟨time, ceiling, rfl⟩

theorem keeps_findKnown (id : String) : KeepsTo call (service.findKnown id) (.known id) Found := by
  unfold findKnown
  refine KeepsTo.await_bind (.apiKeys (.getKey id)) ?_
  intro choice before res after _
  match res with
  | .error e => exact ⟨_, .get, fun _ h => by cases h⟩
  | .ok none =>
    refine ⟨_, .lose, fun found hfound => ?_⟩
    exact (KeepsTo.lost _).mono fun _ _ h => .inl h
  | .ok (some stored) =>
    refine ⟨_, .get, fun found hfound => ?_⟩
    obtain rfl := Except.ok.inj hfound
    refine KeepsTo.quiet_bind (Task.uses_perform rfl) fun _ => ?_
    exact KeepsTo.pure (Found.read stored none none)

theorem keeps_findIndexed (keyPrefix : String) :
    KeepsTo call (service.findIndexed keyPrefix) ph Found := by
  unfold findIndexed
  refine KeepsTo.bind (Q := fun found ph' => ∀ current, found = some current →
    ph' = .read current none none) ?_ ?_
  · unfold FeltDbApiKeyStore.findByPrefix
    refine KeepsTo.quiet_bind (Task.uses_perform rfl) fun pointer => ?_
    match pointer with
    | none => exact KeepsTo.pure fun _ h => by cases h
    | some pointer =>
      refine Discipline.conforms_perform fun choice before res after _ => ⟨_, .get, ?_⟩
      rintro found rfl current rfl
      rfl
  intro found ph' hfound
  match found with
  | none => exact KeepsTo.pure (Found.none ph')
  | some current =>
    obtain rfl := hfound current rfl
    refine KeepsTo.await_bind (.authority (.keyMemory _ (.rememberPrefix _ _))) ?_
    intro choice before res after _
    refine ⟨_, .remember rfl, fun _ _ => ?_⟩
    exact KeepsTo.pure (Found.read current none none)

theorem keeps_findApiKeyByPrefix (keyPrefix : String) :
    KeepsTo call (service.findApiKeyByPrefix keyPrefix) ph Found := by
  unfold findApiKeyByPrefix
  refine KeepsTo.await_bind (.authority (.keyMemory _ (.knownId keyPrefix))) ?_
  intro choice before res after _
  refine ⟨_, .prefixKnown, fun knownId hknown => ?_⟩
  subst hknown
  split
  · exact service.keeps_findIndexed keyPrefix
  · next id hid =>
    obtain ⟨rfl, -⟩ : knownId = some id ∧ True := by
      unfold keepPresent at hid
      split at hid
      · exact ⟨hid, trivial⟩
      · cases hid
    refine (service.keeps_findKnown id).bind ?_
    intro known ph' hknown
    match known with
    | none => exact service.keeps_findIndexed keyPrefix
    | some current => exact KeepsTo.pure hknown

/-- The principal of a key that was not revoked when it was read. -/
theorem keeps_toPrincipal {current updated : ApiKey τ} {time : Option τ}
    {ceiling : Option (ApiKey τ)} (hlive : current.revokedAt = none)
    (hid : updated.id = current.id) :
    KeepsTo call (service.toPrincipal updated) (.read current time ceiling)
      (fun p ph' => ph' = .bound current p) := by
  unfold toPrincipal mintVerifiedPrincipal
  split
  · exact KeepsTo.throw _
  refine KeepsTo.await_bind (.authority (.mint _ .apiKey)) ?_
  intro choice before res after hexec
  obtain ⟨rfl, -⟩ := computed_ok hexec
  refine ⟨_, .mint hlive (congrArg some hid), fun p hp => ?_⟩
  obtain rfl := Except.ok.inj hp
  refine KeepsTo.await_bind (.authority (.bindCredential _ _)) ?_
  intro choice before res after _
  exact ⟨_, .bind hid, fun _ _ => KeepsTo.pure rfl⟩

/-- What the phase says of an authenticated principal. -/
def Authenticates (found : Option VerifiedPrincipal) (ph : KeyPhase τ) : Prop :=
  ph = .lost ∨ ∀ p, found = some p → ∃ current, ph = .bound current p

omit [Timestamp τ] in
theorem Authenticates.none (ph : KeyPhase τ) : Authenticates none ph := .inr fun _ h => by cases h

theorem keeps_lostAuthentication (t : Svc τ (Option VerifiedPrincipal)) :
    KeepsTo call t .lost Authenticates := (KeepsTo.lost t).mono fun _ _ h => .inl h

/-- The principal is returned. -/
theorem keeps_answerPrincipal {current updated : ApiKey τ} {time : Option τ}
    {ceiling : Option (ApiKey τ)} (hlive : current.revokedAt = none)
    (hid : updated.id = current.id) :
    KeepsTo call ((service.toPrincipal updated).bind fun p => pure (some p))
      (.read current time ceiling) Authenticates := by
  refine (service.keeps_toPrincipal hlive hid).bind ?_
  rintro p ph' rfl
  refine KeepsTo.pure (.inr fun q hq => ?_)
  obtain rfl := Option.some.inj hq
  exact ⟨current, rfl⟩

/-- A key that authenticates is not revoked. -/
theorem revokedAt_of_authenticates {current : ApiKey τ} {secret : String} {t : τ}
    (h : service.authenticationFailure current secret t = none) : current.revokedAt = none := by
  unfold authenticationFailure at h
  split at h
  · cases h
  · cases h
  · next hactive => exact revokedAt_of_active hactive

theorem keeps_authenticateLatest (keyPrefix secret : String) :
    KeepsTo call (service.authenticateLatest (τ := τ) keyPrefix secret) ph Authenticates := by
  unfold authenticateLatest
  refine (service.keeps_findApiKeyByPrefix keyPrefix).attempt.bind ?_
  intro found ph' hfound
  match found with
  | .error _ => exact KeepsTo.pure (Authenticates.none ph')
  | .ok none => exact KeepsTo.pure (Authenticates.none ph')
  | .ok (some current) =>
    rcases hfound _ rfl with rfl | hread
    · exact keeps_lostAuthentication _
    obtain ⟨time, ceiling, rfl⟩ := hread current rfl
    refine KeepsTo.quiet_bind (uses_quietKeys consults_now) fun t => ?_
    split
    · exact KeepsTo.quiet_bind (uses_recordAuthEvent ..).ignore fun _ =>
        KeepsTo.pure (Authenticates.none _)
    · next hnone =>
      refine KeepsTo.quiet_bind (uses_recordAuthEvent ..).ignore fun _ => ?_
      exact service.keeps_answerPrincipal (service.revokedAt_of_authenticates hnone) rfl

theorem keeps_authenticateWith (keyPrefix secret : String) : (attempts : Nat) →
    (ph : KeyPhase τ) →
    KeepsTo call (service.authenticateWith (τ := τ) keyPrefix secret attempts) ph Authenticates
  | 0, _ => service.keeps_authenticateLatest keyPrefix secret
  | attempts + 1, ph => by
    unfold authenticateWith
    refine (service.keeps_findApiKeyByPrefix keyPrefix).attempt.bind ?_
    intro found ph' hfound
    match found with
    | .error _ => exact keeps_authenticateWith keyPrefix secret attempts ph'
    | .ok none => exact keeps_authenticateWith keyPrefix secret attempts ph'
    | .ok (some current) =>
      rcases hfound _ rfl with rfl | hread
      · exact keeps_lostAuthentication _
      obtain ⟨time, ceiling, rfl⟩ := hread current rfl
      refine KeepsTo.quiet_bind (uses_quietKeys consults_now) fun t => ?_
      split
      · exact KeepsTo.quiet_bind (uses_recordAuthEvent ..) fun _ =>
          KeepsTo.pure (Authenticates.none _)
      · next hnone =>
        have hlive := service.revokedAt_of_authenticates hnone
        refine (keeps_recordLastUsed hlive t).attempt.bind ?_
        intro updated ph' hupdated
        match updated with
        | .error _ => exact keeps_authenticateWith keyPrefix secret attempts ph'
        | .ok none => exact keeps_authenticateWith keyPrefix secret attempts ph'
        | .ok (some stored) =>
          obtain ⟨time', ceiling', rfl⟩ := hupdated _ rfl
          refine KeepsTo.quiet_bind (uses_recordAuthEvent ..).ignore fun _ => ?_
          refine KeepsTo.quiet_bind (Task.uses_perform rfl) fun _ => ?_
          exact service.keeps_answerPrincipal hlive rfl

theorem keeps_authenticateApiKey (secret : JsValue) :
    KeepsTo call (service.authenticateApiKey (τ := τ) secret) ph Authenticates := by
  unfold authenticateApiKey
  split
  · split
    · exact service.keeps_authenticateWith _ _ _ ph
    · exact KeepsTo.pure (Authenticates.none ph)
  · exact KeepsTo.pure (Authenticates.none ph)

end ApiKeyService

/-- **Every entry point keeps to the protocol.** -/
theorem keyProtocol_obeyed : (keyProtocol τ).Obeyed := by
  -- an answer that says nothing of the phase
  have hsilent : ∀ {call : ApiKeyCall τ} {α : Type} {t : Svc τ α} {Q : α → KeyPhase τ → Prop}
      {answer : α → ApiKeyAnswer τ}, KeepsTo call t (.idle none) Q →
      (∀ a ph, Q a ph → KeyFinal (.ok (answer a)) ph) →
      (keyProtocol τ).Conforms call (t.bind fun a => pure (answer a)) (.idle none) KeyFinal :=
    fun h hanswer => Discipline.Conforms.bind h (fun a ph hq => hanswer a ph (hq a rfl))
      (fun e ph _ => trivial)
  rintro ⟨service, entry⟩
  cases entry with
  | createApiKey input caller =>
    refine hsilent (service.keeps_createApiKey rfl) ?_
    rintro answer ph ⟨key, rfl, hid⟩
    exact .inr ⟨key, rfl, hid⟩
  | updateApiKey input caller => exact hsilent (service.keeps_updateApiKey rfl) fun _ _ _ => trivial
  | rotateApiKey input caller =>
    refine hsilent (service.keeps_rotateApiKey rfl) ?_
    intro answer ph hrotated
    match answer with
    | none => trivial
    | some rotated => exact .inr (hrotated rotated rfl)
  | revokeApiKey input caller =>
    exact hsilent (service.keeps_revokeApiKey input caller) fun _ _ _ => trivial
  | revokeAllApiKeys input caller =>
    exact hsilent (service.keeps_revokeAllApiKeys input caller) fun _ _ _ => trivial
  | authenticateApiKey secret =>
    refine hsilent (service.keeps_authenticateApiKey secret) ?_
    intro answer ph hanswer
    match answer with
    | none => trivial
    | some p =>
      rcases hanswer with hlost | hbound
      · exact .inl hlost
      · exact .inr (hbound p rfl)
  | authorize gateway capability principal resource requestId =>
    exact hsilent (KeepsTo.quiet (uses_quietKeys
      (gateway.consults_authorize capability principal resource requestId))) fun _ _ _ => trivial
  | identify gateway claims =>
    have hidentify : Task.Uses (S := services τ) quietKeyCalls (gateway.identify (τ := τ) claims) := by
      unfold ServiceGateway.identify mintVerifiedPrincipal
      split
      · trivial
      · split
        · trivial
        · exact Task.uses_perform rfl
    exact hsilent (KeepsTo.quiet hidentify) fun _ _ _ => trivial

end conformance

end platform

end AppPort
