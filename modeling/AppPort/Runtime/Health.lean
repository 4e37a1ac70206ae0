import AppPort.ApiKeys.Listing
import AppPort.Authority.Dates
import AppPort.Storage.Bounded

/-!
# Health of the API keys

What `collectHealth` counts of the API keys, beside what `listApiKeys` reports of them.
The counts come from one bounded query and compare the expiry with the time as texts; the
listing compares the instants. Both read the same stored keys.
-/

namespace AppPort

open Effects

variable {τ : Type}

def DEFAULT_HEALTH_COUNT_LIMIT : Nat := 1000

def MAX_HEALTH_COUNT_LIMIT : Nat := 10000

structure ServiceHealthOptions where
  tenantId : Option String := none
  countLimit : Option Int := none

inductive ServiceHealthState where
  | ok
  | degraded
  | unconfigured
  | disabled
  deriving DecidableEq, Repr

/-- The counts of `ApiKeysHealth`. -/
structure ApiKeyCounts where
  keys : Nat
  active : Nat
  revoked : Nat
  expired : Nat
  deriving DecidableEq, Repr

structure ApiKeysHealth where
  state : ServiceHealthState
  reasons : List String
  counts : ApiKeyCounts
  deriving DecidableEq, Repr

/-- The count limit, checked with the tenant. -/
def healthLimit (options : ServiceHealthOptions) : Except JsError Nat :=
  let limit := options.countLimit.getD DEFAULT_HEALTH_COUNT_LIMIT
  if limit < 1 ∨ (MAX_HEALTH_COUNT_LIMIT : Int) < limit then
    .error (.other ("countLimit must be an integer from 1 to " ++ toString MAX_HEALTH_COUNT_LIMIT))
  else if options.tenantId = some "" then
    .error (.other "tenantId must be a non-empty string")
  else .ok limit.toNat

/-- `owned`: the conditions on this application's records. -/
def ownedBy (options : ServiceHealthOptions) (application : String) :
    List (String × Option String) :=
  (match options.tenantId with
    | some tenantId => [("tenantId", some tenantId)]
    | none => []) ++ [("applicationId", some application)]

/-- The fields of a key that are asked for. -/
def keyField (key : ApiKey τ) (name : String) : Option String :=
  if name = "tenantId" then some key.tenantId
  else if name = "applicationId" then key.applicationId
  else none

/-- The collection of the keys. -/
def API_KEYS_COLLECTION : String := "api_keys"

section health

variable [Timestamp τ]

/-- A key that counts as expired: `key.expiresAt <= nowIso`, not revoked. -/
def countsExpired (now : τ) (key : ApiKey τ) : Bool :=
  key.revokedAt.isNone && key.expiresAt.any fun t => decide (t ≤ now)

/-- The API keys part of `collectHealth`: the health, and whether the count is capped.
Nothing when the fuel of the bounded query runs out. -/
def collectApiKeysHealth (fuel : Nat)
    (query : String → List (String × Option String) → BoundedQuery (ApiKey τ))
    (application : String) (authorizer : Bool) (options : ServiceHealthOptions) (now : τ) :
    Option (Except JsError (ApiKeysHealth × Bool)) :=
  match healthLimit options with
  | .error e => some (.error e)
  | .ok limit =>
    (boundedFindWhere fuel query (· == ·) keyField API_KEYS_COLLECTION
      (ownedBy options application) (limit + 1)).map fun found =>
      let keys := found.take limit
      let revoked := keys.countP fun key => key.revokedAt.isSome
      let expired := keys.countP (countsExpired now)
      let state : ServiceHealthState := if keys.isEmpty then .unconfigured else .ok
      let reasons := if keys.isEmpty then ["no_keys"] else []
      .ok ({ state := if authorizer then state else .disabled
             reasons := if authorizer then reasons else "authorizer_unconfigured" :: reasons
             counts := {
               keys := keys.length
               active := keys.length - revoked - expired
               revoked
               expired } },
        decide (limit < found.length))

/-! ## What is counted -/

/-- The keys of this application that are asked about. -/
def ownKeys (options : ServiceHealthOptions) (application : String) (w : World τ) :
    List (ApiKey τ) :=
  (w.apiKeys.keys.find fun _ => true).filter fun key =>
    options.tenantId.all (fun tenantId => key.tenantId == tenantId) &&
      key.applicationId == some application

omit [Timestamp τ] in
theorem matchesWhere_owned (options : ServiceHealthOptions) (application : String)
    (key : ApiKey τ) :
    matchesWhere (· == ·) keyField (ownedBy options application) key =
      (options.tenantId.all (fun tenantId => key.tenantId == tenantId) &&
        key.applicationId == some application) := by
  cases htenant : options.tenantId with
  | none => simp [matchesWhere, ownedBy, htenant, keyField]
  | some tenantId => simp [matchesWhere, ownedBy, htenant, keyField]

/-- The status `collectHealth` takes a key to have. -/
def healthStatus (key : ApiKey τ) (now : τ) : ApiKeyStatus :=
  if key.revokedAt.isSome then .revoked
  else if countsExpired now key then .expired
  else .active

theorem healthStatus_revoked (key : ApiKey τ) (now : τ) :
    (healthStatus key now == .revoked) = key.revokedAt.isSome := by
  unfold healthStatus
  cases key.revokedAt.isSome with
  | true => rfl
  | false =>
    cases countsExpired now key with
    | true => rfl
    | false => rfl

theorem healthStatus_expired (key : ApiKey τ) (now : τ) :
    (healthStatus key now == .expired) = countsExpired now key := by
  unfold healthStatus countsExpired
  cases hrevoked : key.revokedAt with
  | some t => rfl
  | none => cases (key.expiresAt.any fun t => decide (t ≤ now)) <;> rfl

omit [Timestamp τ] in
/-- The three statuses share out the keys. -/
theorem countP_statuses (status : ApiKey τ → ApiKeyStatus) (keys : List (ApiKey τ)) :
    keys.countP (status · == .active) + keys.countP (status · == .revoked) +
      keys.countP (status · == .expired) = keys.length := by
  induction keys with
  | nil => rfl
  | cons key rest ih =>
    simp only [List.countP_cons, List.length_cons]
    cases status key <;> simp <;> omega

/-- Uncapped, the counts are those of all keys that are asked about. -/
theorem collectApiKeysHealth_uncapped
    {query : String → List (String × Option String) → BoundedQuery (ApiKey τ)}
    {position : Option String → Nat} {w : World τ} {application : String} {authorizer : Bool}
    {options : ServiceHealthOptions} {fuel : Nat} {health : ApiKeysHealth}
    (hquery : Chunks (query API_KEYS_COLLECTION (ownedBy options application))
      (w.apiKeys.keys.find fun _ => true) position)
    (hfuel : (w.apiKeys.keys.find fun _ => true).length < fuel)
    (hhealth : collectApiKeysHealth fuel query application authorizer options w.clock =
      some (.ok (health, false))) :
    let keys := ownKeys options application w
    health.counts = {
      keys := keys.length
      active := keys.countP (healthStatus · w.clock == .active)
      revoked := keys.countP (healthStatus · w.clock == .revoked)
      expired := keys.countP (healthStatus · w.clock == .expired) } := by
  intro keys
  have hkeys : (w.apiKeys.keys.find fun _ => true).filter
      (matchesWhere (· == ·) keyField (ownedBy options application)) = keys :=
    List.filter_congr fun key _ => matchesWhere_owned options application key
  unfold collectApiKeysHealth at hhealth
  cases hlimit : healthLimit options with
  | error e =>
    rw [hlimit] at hhealth
    cases hhealth
  | ok limit =>
    rw [hlimit] at hhealth
    have hfind := @Chunks.boundedFind_eq _ _ _ _
      (matchesWhere (· == ·) keyField (ownedBy options application)) (limit + 1) hquery fuel hfuel
    rw [hkeys] at hfind
    simp only [boundedFindWhere, hfind, Option.map_some, Option.some.injEq, Except.ok.injEq,
      Prod.mk.injEq, decide_eq_false_iff_not] at hhealth
    obtain ⟨hhealth, huncapped⟩ := hhealth
    have hshort : keys.length ≤ limit := by
      rw [List.length_take] at huncapped
      omega
    have hfound : keys.take (limit + 1) = keys := List.take_of_length_le (by omega)
    rw [← hhealth, hfound, List.take_of_length_le hshort]
    have hrevoked : (fun key : ApiKey τ => healthStatus key w.clock == .revoked) =
        fun key => key.revokedAt.isSome := funext fun key => healthStatus_revoked key w.clock
    have hexpired : (fun key : ApiKey τ => healthStatus key w.clock == .expired) =
        countsExpired w.clock := funext fun key => healthStatus_expired key w.clock
    have hshare := countP_statuses (healthStatus · w.clock) keys
    rw [hrevoked, hexpired] at hshare ⊢
    dsimp only
    congr 1
    omega

/-! ## What is listed -/

/-- Without options `listApiKeys` reports every key of the tenant. -/
theorem listApiKeys_all {service : ApiKeyService} {tenantId : String} {w w' : World τ}
    {views : List (ApiKeyView τ)}
    (h : Task.Settles (S := services τ) (alone τ) (service.listApiKeys tenantId .undefined) w
      (.ok views) w') :
    views = (w.apiKeys.keys.find fun key => key.tenantId == tenantId).map
      fun key => toView key w.clock := by
  have hlist : ∀ choice, AppOp.exec (.apiKeys (.listKeys tenantId)) choice w =
      stored choice w (.ok (w.apiKeys.keys.find fun key => key.tenantId == tenantId), w) :=
    fun _ => rfl
  have hensures : (service.listApiKeys tenantId .undefined).Ensures (alone τ) w
      (fun r _ => ∀ taken, r = .ok taken →
        taken = (w.apiKeys.keys.find fun key => key.tenantId == tenantId).map
          fun key => toView key w.clock) := by
    unfold ApiKeyService.listApiKeys
    refine Task.Ensures.bind (ensures_alone_stored _ hlist) ?_ (fun e _ _ taken h => by cases h)
    rintro items w₁ ⟨rfl, hitems⟩
    obtain rfl := hitems items rfl
    refine Task.Ensures.bind (ensures_alone_now w₁) ?_ (fun e _ _ taken h => by cases h)
    rintro t w₂ ⟨rfl, ht⟩ taken htaken
    obtain rfl := ht t rfl
    exact (Except.ok.inj htaken).symm
  exact hensures.settles h views rfl

/-- The tenants whose listings are read: the one asked about, or all that have keys. -/
def ListsTenants (options : ServiceHealthOptions) (w : World τ) (tenants : List String) : Prop :=
  match options.tenantId with
  | some tenantId => tenants = [tenantId]
  | none => tenants.Nodup ∧ ∀ id key, w.apiKeys.keys.get id = some key → key.tenantId ∈ tenants

/-- How many of this application's keys the listings of some tenants report with a status. -/
def reportedCount (application : String) (w : World τ) (tenants : List String)
    (status : ApiKeyStatus) : Nat :=
  (tenants.map fun tenantId => (w.apiKeys.keys.find fun key => key.tenantId == tenantId).countP
    fun key => key.applicationId == some application && (toView key w.clock).status == status).sum

omit [Timestamp τ] in
/-- Keys counted tenant by tenant are counted once. -/
theorem sum_countP_tenants {tenants : List String} (hnodup : tenants.Nodup) (keys : List (ApiKey τ))
    (p : ApiKey τ → Bool) :
    (tenants.map fun tenantId => (keys.filter fun key => key.tenantId == tenantId).countP p).sum =
      keys.countP fun key => decide (key.tenantId ∈ tenants) && p key := by
  induction tenants with
  | nil => simp
  | cons tenantId rest ih =>
    obtain ⟨hnew, hrest⟩ := List.nodup_cons.mp hnodup
    rw [List.map_cons, List.sum_cons, ih hrest, List.countP_filter]
    clear ih
    induction keys with
    | nil => rfl
    | cons key keys ihkeys =>
      simp only [List.countP_cons, List.mem_cons, Bool.and_eq_true, beq_iff_eq,
        decide_eq_true_eq] at ihkeys ⊢
      by_cases hhere : key.tenantId = tenantId
      · have hthere : key.tenantId ∉ rest := hhere ▸ hnew
        simp only [hhere, hnew, and_true, true_or, true_and, false_and, if_false] at ihkeys ⊢
        omega
      · simp only [hhere, and_false, false_or, if_false] at ihkeys ⊢
        omega

/-- What the listings report together is what is stored. -/
theorem reportedCount_eq {application : String} {options : ServiceHealthOptions} {w : World τ}
    {tenants : List String} (htenants : ListsTenants options w tenants) (status : ApiKeyStatus) :
    reportedCount application w tenants status =
      (ownKeys options application w).countP (keyStatus · w.clock == status) := by
  have hall : ∀ p : ApiKey τ → Bool, w.apiKeys.keys.find p =
      (w.apiKeys.keys.find fun _ => true).filter p := by
    intro p
    simp [Table.find]
  have hsum : ∀ nodup : tenants.Nodup, reportedCount application w tenants status =
      (w.apiKeys.keys.find fun _ => true).countP fun key => decide (key.tenantId ∈ tenants) &&
        (key.applicationId == some application && keyStatus key w.clock == status) := by
    intro hnodup
    unfold reportedCount
    rw [← sum_countP_tenants hnodup]
    congr 1
    apply List.map_congr_left
    intro tenantId _
    rw [hall]
    rfl
  unfold ownKeys
  rw [List.countP_filter]
  cases htenant : options.tenantId with
  | some tenantId =>
    rw [ListsTenants, htenant] at htenants
    simp only at htenants
    rw [hsum (by rw [htenants]; simp), htenants]
    apply List.countP_congr
    intro key _
    simp only [List.mem_singleton, Option.all_some, Bool.and_eq_true, decide_eq_true_eq, beq_iff_eq]
    tauto
  | none =>
    rw [ListsTenants, htenant] at htenants
    obtain ⟨hnodup, hcovers⟩ := htenants
    rw [hsum hnodup]
    apply List.countP_congr
    intro key hkey
    obtain ⟨⟨id, hget⟩, -⟩ := Table.mem_find.mp hkey
    have hmem := hcovers id key hget
    simp only [hmem, decide_true, Option.all_none, Bool.and_eq_true, beq_iff_eq, true_and]
    tauto

end health

/-! ## The two statuses -/

/-- A key has one status in both exactly if, unrevoked, its expiry is written in order with
the time. -/
theorem healthStatus_eq_iff (key : ApiKey IsoDate) (now : IsoDate) :
    healthStatus key now = keyStatus key now ↔
      (key.revokedAt = none → ∀ t, key.expiresAt = some t → t.InOrder now) := by
  unfold healthStatus keyStatus countsExpired
  cases hrevoked : key.revokedAt with
  | some t => simp
  | none =>
    cases hexpiry : key.expiresAt with
    | none => simp
    | some t =>
      have hiff := le_iff_getTime t now
      simp only [Option.isSome_none, Option.isNone_none, Bool.false_eq_true, if_false,
        Option.any_some, Bool.true_and, decide_eq_true_eq, Option.some.injEq, forall_eq',
        forall_const]
      rw [← hiff]
      by_cases htext : t ≤ now
      · simp [htext]
      · simp [htext]

/-- **Health and listing agree on a key count.** The health counts are, status by status,
how many of this application's keys the listings report; they add up; and the two statuses
are one for every key. -/
structure CountsAgree (health : ApiKeysHealth) (application : String)
    (options : ServiceHealthOptions) (w : World IsoDate) (tenants : List String) : Prop where
  active : health.counts.active = reportedCount application w tenants .active
  revoked : health.counts.revoked = reportedCount application w tenants .revoked
  expired : health.counts.expired = reportedCount application w tenants .expired
  total : health.counts.active + health.counts.revoked + health.counts.expired = health.counts.keys
  statuses : ∀ key ∈ ownKeys options application w,
    healthStatus key w.clock = keyStatus key w.clock

/-- **When the counts can be relied on.** Whenever the count is not capped, health and the
listings agree exactly if every unrevoked key of the application has an expiry that is
written in order with the time: with four-digit years in both, or as `InOrder` says. -/
theorem apiKeysHealth_agrees_iff (service : ApiKeyService) (application : String)
    (authorizer : Bool) (options : ServiceHealthOptions) (w : World IsoDate)
    (query : String → List (String × Option String) → BoundedQuery (ApiKey IsoDate))
    (position : Option String → Nat) (tenants : List String) (fuel : Nat) (health : ApiKeysHealth)
    (hquery : Chunks (query API_KEYS_COLLECTION (ownedBy options application))
      (w.apiKeys.keys.find fun _ => true) position)
    (hfuel : (w.apiKeys.keys.find fun _ => true).length < fuel)
    (htenants : ListsTenants options w tenants)
    (hhealth : collectApiKeysHealth fuel query application authorizer options w.clock =
      some (.ok (health, false))) :
    (∀ tenantId views w', Task.Settles (S := services IsoDate) (alone IsoDate)
        (service.listApiKeys tenantId .undefined) w (.ok views) w' →
        views = (w.apiKeys.keys.find fun key => key.tenantId == tenantId).map
          fun key => toView key w.clock) ∧
      (CountsAgree health application options w tenants ↔
        ∀ key ∈ ownKeys options application w, key.revokedAt = none →
          ∀ t, key.expiresAt = some t → t.InOrder w.clock) := by
  constructor
  · intro tenantId views w' hsettles
    exact listApiKeys_all hsettles
  have hcounts := collectApiKeysHealth_uncapped hquery hfuel hhealth
  constructor
  · intro hagree key hkey
    exact (healthStatus_eq_iff key w.clock).mp (hagree.statuses key hkey)
  · intro hinOrder
    have hstatuses : ∀ key ∈ ownKeys options application w,
        healthStatus key w.clock = keyStatus key w.clock :=
      fun key hkey => (healthStatus_eq_iff key w.clock).mpr (hinOrder key hkey)
    have hsame : ∀ status, (ownKeys options application w).countP
        (healthStatus · w.clock == status) = reportedCount application w tenants status := by
      intro status
      rw [reportedCount_eq htenants]
      apply List.countP_congr
      intro key hkey
      rw [hstatuses key hkey]
    constructor
    · rw [hcounts]
      exact hsame .active
    · rw [hcounts]
      exact hsame .revoked
    · rw [hcounts]
      exact hsame .expired
    · rw [hcounts]
      exact countP_statuses (healthStatus · w.clock) _
    · exact hstatuses

/-- A key that expires at the beginning of the year 10000. -/
def lastingKey : ApiKey IsoDate :=
  { id := "k1", tenantId := "acme", applicationId := some "shop", name := "lasting",
    keyPrefix := "app_live_0000ff", secretHash := "verifier", createdBy := "user-1",
    createdAt := ⟨1767225600000, by decide⟩
    expiresAt := some ⟨253402300800000, by decide⟩ }

/-- It is stored alone, at the beginning of 2026. -/
def lastingWorld : World IsoDate :=
  { clock := ⟨1767225600000, by decide⟩
    apiKeys := { keys := Table.empty.put "k1" lastingKey } }

/-- What health makes of it. -/
def lastingHealth : ApiKeysHealth :=
  { state := .ok, reasons := [], counts := { keys := 1, active := 0, revoked := 0, expired := 1 } }

theorem lastingHealth_collected :
    collectApiKeysHealth 3 (fun _ _ => strokesQuery [lastingKey]) "shop" true {}
      lastingWorld.clock = some (.ok (lastingHealth, false)) := by
  decide +kernel

theorem apiKeysHealth_agrees_lasting :
    (∀ tenantId views w', Task.Settles (S := services IsoDate) (alone IsoDate)
        (ApiKeyService.listingService.listApiKeys tenantId .undefined) lastingWorld (.ok views) w' →
        views = (lastingWorld.apiKeys.keys.find fun key => key.tenantId == tenantId).map
          fun key => toView key lastingWorld.clock) ∧
      (CountsAgree lastingHealth "shop" {} lastingWorld ["acme"] ↔
        ∀ key ∈ ownKeys {} "shop" lastingWorld, key.revokedAt = none →
          ∀ t, key.expiresAt = some t → t.InOrder lastingWorld.clock) := by
  have htenants : ListsTenants {} lastingWorld ["acme"] := by
    constructor
    · simp
    · intro id key hget
      have hkey : key = lastingKey := by
        by_cases hid : id = "k1"
        · rw [hid] at hget
          have hsame := Table.get_put_same (Table.empty (α := ApiKey IsoDate)) "k1" lastingKey
          exact Option.some.inj (hget.symm.trans hsame)
        · have hother := Table.get_put_other (Table.empty (α := ApiKey IsoDate)) lastingKey hid
          have hnone := hget.symm.trans hother
          cases hnone
      rw [hkey]
      simp [lastingKey]
  exact apiKeysHealth_agrees_iff ApiKeyService.listingService "shop" true {} lastingWorld
    (fun _ _ => strokesQuery [lastingKey]) _ ["acme"] 3 lastingHealth
    (strokesQuery_chunks [lastingKey]) (by decide) htenants lastingHealth_collected

/-- Health counts the key as expired, `listApiKeys` reports it as active. -/
theorem lastingKey_counts_expired :
    collectApiKeysHealth 3 (fun _ _ => strokesQuery [lastingKey]) "shop" true {}
        lastingWorld.clock = some (.ok (lastingHealth, false)) ∧
      lastingHealth.counts.expired = 1 ∧
      reportedCount "shop" lastingWorld ["acme"] .expired = 0 ∧
      reportedCount "shop" lastingWorld ["acme"] .active = 1 ∧
      ¬ CountsAgree lastingHealth "shop" {} lastingWorld ["acme"] := by
  have hreported : reportedCount "shop" lastingWorld ["acme"] .expired = 0 := by decide +kernel
  apply And.intro lastingHealth_collected
  apply And.intro rfl
  apply And.intro hreported
  apply And.intro (by decide +kernel)
  intro hagree
  have hexpired := hagree.expired
  rw [hreported] at hexpired
  cases hexpired

end AppPort
