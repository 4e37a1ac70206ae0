import AppPort.Runtime.Alone
import AppPort.Storage.Bounded
import AppPort.Webhooks.Service

/-!
# Reading deliveries

`readWebhookDeliveries` reads one page of the tenant's deliveries and drops those to
endpoints of other applications. The page is cut before they are dropped, so a short
answer is the whole answer only where nothing of another application took a place on the
page, or nothing of this one was cut off.
-/

namespace AppPort

open Effects

variable {τ : Type} [Timestamp τ]

/-! ## The call -/

def DEFAULT_WEBHOOK_DELIVERY_PAGE : Int := 50

def MAX_WEBHOOK_DELIVERY_PAGE : Int := 200

/-- The status as it is written. -/
def WebhookDeliveryStatus.text : WebhookDeliveryStatus → String
  | pending => "pending"
  | delivering => "delivering"
  | delivered => "delivered"
  | retrying => "retrying"
  | failed => "failed"

def WEBHOOK_DELIVERY_STATUSES : List WebhookDeliveryStatus :=
  [.pending, .delivering, .delivered, .retrying, .failed]

/-- `WebhookDeliveryQuery`, with a tenant. -/
structure WebhookDeliveryQueryInput where
  tenantId : Option String := none
  endpointId : JsValue := .undefined
  status : JsValue := .undefined
  limit : JsValue := .undefined

/-- A checked query. -/
structure DeliveryQuery where
  endpointId : Option String := none
  status : Option WebhookDeliveryStatus := none
  limit : Nat
  deriving DecidableEq, Repr

/-- The limit, if it is one. -/
def deliveryLimit (limit : JsValue) : Option Nat :=
  match limit.orElse (.num DEFAULT_WEBHOOK_DELIVERY_PAGE) with
  | .num n => if 1 ≤ n ∧ n ≤ MAX_WEBHOOK_DELIVERY_PAGE then some n.toNat else none
  | _ => none

/-- An endpoint id, if one is given. -/
def queriedEndpoint : JsValue → Except JsError (Option String)
  | .undefined => .ok none
  | .str id =>
    if id = "" then .error (serviceError .invalidRequest "endpointId must be a non-empty string")
    else .ok (some id)
  | _ => .error (serviceError .invalidRequest "endpointId must be a non-empty string")

/-- A status, if one is given. -/
def queriedStatus : JsValue → Except JsError (Option WebhookDeliveryStatus)
  | .undefined => .ok none
  | value =>
    match WEBHOOK_DELIVERY_STATUSES.find? fun s => value.isText s.text with
    | some status => .ok (some status)
    | none => .error (serviceError .invalidRequest ("status must be one of " ++
        ", ".intercalate (WEBHOOK_DELIVERY_STATUSES.map WebhookDeliveryStatus.text)))

/-- `deliveryQuery`. -/
def deliveryQuery (input : WebhookDeliveryQueryInput) : Except JsError DeliveryQuery :=
  match deliveryLimit input.limit with
  | none => .error (serviceError .invalidRequest
      ("limit must be an integer from 1 to " ++ toString MAX_WEBHOOK_DELIVERY_PAGE))
  | some limit => do
    let endpointId ← queriedEndpoint input.endpointId
    let status ← queriedStatus input.status
    pure { endpointId, status, limit }

/-- A delivery the query asks for. -/
def DeliveryQuery.wants (query : DeliveryQuery) (tenantId : String) (d : WebhookDelivery τ) : Bool :=
  d.tenantId == tenantId &&
    (match query.endpointId with | some e => d.endpointId == e | none => true) &&
    (match query.status with | some s => d.status == s | none => true)

/-- `ownedEndpointIds`. -/
def ownedEndpointIds (tenantId application : String) : Svc τ (List String) := do
  let endpoints : List (WebhookEndpoint τ) ← (WebhookOp.listEndpoints tenantId).perform
  pure ((endpoints.filter fun endpoint => endpoint.applicationId == some application).map
    WebhookEndpoint.id)

/-- One page of the store, or, from a store without pages, the start of its list. -/
def deliveryPage (paged : Bool) (tenantId : String) (query : DeliveryQuery) :
    Svc τ (List (WebhookDelivery τ)) :=
  if paged then
    (WebhookOp.pageDeliveries tenantId query.endpointId query.status query.limit).perform
  else do
    let listed : List (WebhookDelivery τ) ←
      (WebhookOp.listDeliveries tenantId query.endpointId none).perform
    pure ((listed.filter fun d =>
      match query.status with | some s => d.status == s | none => true).take query.limit)

/-- `readWebhookDeliveries`; `paged` says whether the store has a `page` method. -/
def WebhookService.readWebhookDeliveries (service : WebhookService) (paged : Bool)
    (input : WebhookDeliveryQueryInput) (caller : PrincipalInput) :
    Svc τ (List (WebhookDelivery τ)) := do
  let principal ← requireVerifiedPrincipal caller
  let tenantId ← check (resolveTenant input.tenantId principal)
  let query ← check (deliveryQuery input)
  let gateway ← check service.gateway
  gateway.execute "webhooks.deliveries.read" (.of principal)
    { type := "webhook_delivery", tenantId
      attributes := [("endpointId", query.endpointId.getD "*"),
        ("status", (query.status.map WebhookDeliveryStatus.text).getD "*")] }
    { service := "webhooks" }
    fun context _ => do
      let owned ← ownedEndpointIds tenantId context.application
      if query.endpointId.any (fun id => !owned.contains id) then pure []
      else do
        let rows ← deliveryPage paged tenantId query
        pure (rows.filter fun d => owned.contains d.endpointId)

/-! ## What is asked for -/

/-- A query that was checked is bounded. -/
structure DeliveryQuery.Checked (query : DeliveryQuery) : Prop where
  positive : 1 ≤ query.limit
  bounded : query.limit ≤ 200
  endpointId : query.endpointId ≠ some ""

theorem deliveryLimit_bounded {limit : JsValue} {n : Nat} (h : deliveryLimit limit = some n) :
    1 ≤ n ∧ n ≤ 200 := by
  unfold deliveryLimit MAX_WEBHOOK_DELIVERY_PAGE at h
  split at h
  · split at h
    · next hrange =>
      obtain rfl := Option.some.inj h
      omega
    · cases h
  · cases h

theorem deliveryQuery_checked {input : WebhookDeliveryQueryInput} {query : DeliveryQuery}
    (h : deliveryQuery input = .ok query) : query.Checked := by
  unfold deliveryQuery at h
  split at h
  · cases h
  · next limit hlimit =>
    obtain ⟨endpointId, hendpoint, h⟩ := bind_eq_ok h
    obtain ⟨status, -, h⟩ := bind_eq_ok h
    obtain rfl := Except.ok.inj h
    obtain ⟨hpositive, hbounded⟩ := deliveryLimit_bounded hlimit
    refine ⟨hpositive, hbounded, ?_⟩
    unfold queriedEndpoint at hendpoint
    split at hendpoint
    · obtain rfl := Except.ok.inj hendpoint
      simp
    · split at hendpoint
      · cases hendpoint
      · next hne =>
        obtain rfl := Except.ok.inj hendpoint
        simpa using hne
    · cases hendpoint

/-- The ids of the tenant's endpoints that are of the application. -/
def ownedIn (db : WebhookTables τ) (tenantId application : String) : List String :=
  ((db.endpoints.find fun e => e.tenantId == tenantId).filter fun endpoint =>
    endpoint.applicationId == some application).map WebhookEndpoint.id

/-- The deliveries the query asks for, in the order of the store. -/
def wantedIn (db : WebhookTables τ) (tenantId : String) (query : DeliveryQuery) :
    List (WebhookDelivery τ) :=
  db.deliveries.find (query.wants tenantId)

/-- What is read of a store that does not change. -/
def readIn (db : WebhookTables τ) (tenantId application : String) (query : DeliveryQuery) :
    List (WebhookDelivery τ) :=
  if query.endpointId.any (fun id => !(ownedIn db tenantId application).contains id) then []
  else ((wantedIn db tenantId query).take query.limit).filter fun d =>
    (ownedIn db tenantId application).contains d.endpointId

theorem keepPresent_of_ne {s : Option String} (h : s ≠ some "") : keepPresent s = s := by
  cases s with
  | none => rfl
  | some text =>
    have hne : text ≠ "" := fun heq => h (congrArg some heq)
    simp [keepPresent, present, hne]

omit [Timestamp τ] in
theorem exec_pageDeliveries {query : DeliveryQuery} (hquery : query.Checked) (now : τ)
    (db : WebhookTables τ) (tenantId : String) :
    WebhookOp.exec now db (.pageDeliveries tenantId query.endpointId query.status query.limit) =
      (.ok ((wantedIn db tenantId query).take query.limit), db) := by
  simp only [WebhookOp.exec, keepPresent_of_ne hquery.endpointId]
  rfl

omit [Timestamp τ] in
theorem exec_listDeliveries {query : DeliveryQuery} (hquery : query.Checked) (now : τ)
    (db : WebhookTables τ) (tenantId : String) :
    WebhookOp.exec now db (.listDeliveries tenantId query.endpointId none) =
      (.ok (db.deliveries.find fun d => d.tenantId == tenantId &&
        (match query.endpointId with | some e => d.endpointId == e | none => true)), db) := by
  simp only [WebhookOp.exec, keepPresent_of_ne hquery.endpointId]
  rfl

omit [Timestamp τ] in
/-- What a bounded query finds is what the store's `page` answers with. -/
theorem page_is_bounded_find {engine : BoundedQuery (WebhookDelivery τ)} {db : WebhookTables τ}
    (h : Enumerates engine (db.deliveries.find fun _ => true)) {query : DeliveryQuery}
    (tenantId : String) {fuel : Nat}
    (hfuel : (db.deliveries.find fun _ => true).length < fuel) :
    boundedFind fuel engine (query.wants tenantId) query.limit =
      some ((wantedIn db tenantId query).take query.limit) := by
  rw [h.boundedFind_eq hfuel]
  simp [wantedIn, Table.find]

/-! ## What the call answers -/

/-- A call of the webhook stores that reads. -/
theorem ensures_webhook_read {op : WebhookOp τ} {w : World τ} {a : op.Out}
    (hexec : WebhookOp.exec w.clock w.webhooks op = (.ok a, w.webhooks)) :
    Task.Ensures (S := services τ) (alone τ) op.perform w
      (fun r w' => w' = w ∧ ∀ b, r = .ok b → b = a) := by
  refine ensures_alone_stored _ fun choice => ?_
  simp only [AppOp.exec, hexec]

/-- The effect reads what the store holds. -/
theorem ensures_read_effect (paged : Bool) {tenantId application : String} {query : DeliveryQuery}
    (hquery : query.Checked) {w₀ w : World τ} (hsame : SameStores w₀ w) :
    Task.Ensures (S := services τ) (alone τ)
      (do
        let owned ← ownedEndpointIds tenantId application
        if query.endpointId.any (fun id => !owned.contains id) then pure []
        else do
          let rows ← deliveryPage paged tenantId query
          pure (rows.filter fun d => owned.contains d.endpointId)) w
      (fun r w' => SameStores w₀ w' ∧
        ∀ rows, r = .ok rows → rows = readIn w₀.webhooks tenantId application query) := by
  have howned : Task.Ensures (S := services τ) (alone τ)
      (ownedEndpointIds tenantId application) w
      (fun r w' => w' = w ∧ ∀ owned, r = .ok owned →
        owned = ownedIn w₀.webhooks tenantId application) := by
    unfold ownedEndpointIds
    refine Task.Ensures.bind (ensures_webhook_read (a :=
      w.webhooks.endpoints.find fun e => e.tenantId == tenantId) rfl) ?_ ?_
    · rintro endpoints w₁ ⟨rfl, hendpoints⟩
      obtain rfl := hendpoints endpoints rfl
      refine ⟨rfl, fun owned h => ?_⟩
      rw [← Except.ok.inj h, hsame.webhooks]
      rfl
    · rintro e w₁ ⟨rfl, -⟩
      exact ⟨rfl, fun _ h => nomatch h⟩
  refine Task.Ensures.bind howned ?_ ?_
  · rintro owned w₁ ⟨rfl, hread⟩
    obtain rfl := hread owned rfl
    split
    · next hforeign =>
      refine ⟨hsame, fun rows h => ?_⟩
      rw [← Except.ok.inj h, readIn, if_pos hforeign]
    · next hours =>
      have hpage : (deliveryPage paged tenantId query).Ensures (alone τ) w₁
          (fun r w' => w' = w₁ ∧ ∀ rows, r = .ok rows →
            rows = (wantedIn w₀.webhooks tenantId query).take query.limit) := by
        unfold deliveryPage
        rw [← hsame.webhooks]
        split
        · exact ensures_webhook_read (exec_pageDeliveries hquery w₁.clock w₁.webhooks tenantId)
        · refine Task.Ensures.bind (ensures_webhook_read
            (exec_listDeliveries hquery w₁.clock w₁.webhooks tenantId)) ?_ ?_
          · rintro listed w₂ ⟨rfl, hlisted⟩
            obtain rfl := hlisted listed rfl
            refine ⟨rfl, fun rows h => ?_⟩
            rw [← Except.ok.inj h, wantedIn, Table.find, Table.find, List.filter_filter]
            congr 1
            refine List.filter_congr fun d _ => ?_
            rw [DeliveryQuery.wants, Bool.and_comm]
          · rintro e w₂ ⟨rfl, -⟩
            exact ⟨rfl, fun _ h => nomatch h⟩
      refine Task.Ensures.bind hpage ?_ ?_
      · rintro page w₂ ⟨rfl, hread⟩
        obtain rfl := hread page rfl
        refine ⟨hsame, fun rows h => ?_⟩
        rw [← Except.ok.inj h, readIn, if_neg hours]
      · rintro e w₂ ⟨rfl, -⟩
        exact kept_error hsame e
  · rintro e w₁ ⟨rfl, -⟩
    exact kept_error hsame e

/-- What the call answers with, when it answers. -/
def ReadAnswer (service : WebhookService) (db : WebhookTables τ) (input : WebhookDeliveryQueryInput)
    (caller : PrincipalInput) (rows : List (WebhookDelivery τ)) : Prop :=
  ∃ gateway principal hasScopes query, service.authority = some gateway ∧
    caller = .object principal hasScopes ∧ deliveryQuery input = .ok query ∧
    rows = readIn db principal.tenantId gateway.application query

/-- **What `readWebhookDeliveries` answers with**, however the host decides. -/
theorem ensures_readWebhookDeliveries (service : WebhookService) (paged : Bool)
    (input : WebhookDeliveryQueryInput) (caller : PrincipalInput) (w : World τ) :
    (service.readWebhookDeliveries paged input caller).Ensures (alone τ) w (fun r w' =>
      SameStores w w' ∧ ∀ rows, r = .ok rows → ReadAnswer service w.webhooks input caller rows) := by
  have hkept := ((sameStores_kept w).ensures (uses_requireVerifiedPrincipal caller)
    (SameStores.refl w)).yields (yields_requireVerifiedPrincipal caller)
  refine Task.Ensures.bind hkept ?_ (fun e _ h => kept_error h.1 e)
  rintro principal w₁ ⟨hsame, hcaller⟩
  obtain ⟨hasScopes, hcaller⟩ := hcaller principal rfl
  refine Task.Ensures.bind (Task.ensures_ofExcept _ w₁) ?_ ?_
  · rintro tenantId w₂ ⟨htenant, rfl⟩
    obtain ⟨rfl, -⟩ := resolveTenant_eq_ok.mp htenant.symm
    refine Task.Ensures.bind (Task.ensures_ofExcept _ w₂) ?_ ?_
    · rintro query w₃ ⟨hquery, rfl⟩
      refine Task.Ensures.bind (Task.ensures_ofExcept _ w₃) ?_ ?_
      · rintro gateway w₄ ⟨hgateway, rfl⟩
        have hauthority : service.authority = some gateway := by
          unfold WebhookService.gateway at hgateway
          split at hgateway
          · next hauthority =>
            rw [hauthority, Except.ok.inj hgateway]
          · cases hgateway
        refine ensures_execute_issued (Q := ReadAnswer service w.webhooks input caller)
          (sameStores_kept w) alone_byExecution ?_ hsame
        intro context tools w₅ hissued hsame'
        refine (ensures_read_effect paged (deliveryQuery_checked hquery.symm) hsame').mono ?_
        rintro r w₆ ⟨hsame'', hrows⟩
        refine ⟨hsame'', fun rows hr => ⟨gateway, principal, hasScopes, query, hauthority, hcaller,
          hquery.symm, ?_⟩⟩
        rw [hrows rows hr, hissued.application]
      · rintro e w₄ ⟨-, rfl⟩
        exact kept_error hsame e
    · rintro e w₃ ⟨-, rfl⟩
      exact kept_error hsame e
  · rintro e w₂ ⟨-, rfl⟩
    exact kept_error hsame e

/-! ## When a short answer is the whole answer -/

/-- The endpoint is one of the tenant's and of this application. -/
def OwnedEndpoint (db : WebhookTables τ) (tenantId application endpointId : String) : Prop :=
  ∃ id endpoint, db.endpoints.get id = some endpoint ∧ endpoint.tenantId = tenantId ∧
    endpoint.applicationId = some application ∧ endpoint.id = endpointId

/-- A stored delivery of the tenant to an endpoint of this application, as the query asks
for. -/
structure Readable (db : WebhookTables τ) (tenantId application : String) (query : DeliveryQuery)
    (d : WebhookDelivery τ) : Prop where
  stored : db.deliveries.get d.id = some d
  ofTenant : d.tenantId = tenantId
  owned : OwnedEndpoint db tenantId application d.endpointId
  endpointId : ∀ id ∈ query.endpointId, d.endpointId = id
  status : ∀ status ∈ query.status, d.status = status

/-- Each delivery is stored once, under its id. -/
structure DeliveriesNamed (db : WebhookTables τ) : Prop where
  keys : db.deliveries.keys.Nodup
  named : ∀ id d, db.deliveries.get id = some d → d.id = id

/-- Of what the query asks for, the first `limit` are all to endpoints of this application,
or none of the others is. -/
def PageNotCrowded (db : WebhookTables τ) (tenantId application : String) (query : DeliveryQuery) :
    Prop :=
  (∀ d ∈ (wantedIn db tenantId query).take query.limit,
      OwnedEndpoint db tenantId application d.endpointId) ∨
    ∀ d ∈ (wantedIn db tenantId query).drop query.limit,
      ¬ OwnedEndpoint db tenantId application d.endpointId

section whole

variable {db : WebhookTables τ} {tenantId application : String} {query : DeliveryQuery}

omit [Timestamp τ]

theorem contains_ownedIn {endpointId : String} :
    (ownedIn db tenantId application).contains endpointId = true ↔
      OwnedEndpoint db tenantId application endpointId := by
  rw [List.contains_iff_mem, ownedIn, List.mem_map]
  constructor
  · rintro ⟨endpoint, hmem, rfl⟩
    obtain ⟨hfound, happlication⟩ := List.mem_filter.mp hmem
    obtain ⟨⟨id, hget⟩, htenant⟩ := Table.mem_find.mp hfound
    exact ⟨id, endpoint, hget, beq_iff_eq.mp htenant, beq_iff_eq.mp happlication, rfl⟩
  · rintro ⟨id, endpoint, hget, htenant, happlication, rfl⟩
    exact ⟨endpoint, List.mem_filter.mpr ⟨Table.mem_find.mpr ⟨⟨id, hget⟩, beq_iff_eq.mpr htenant⟩,
      beq_iff_eq.mpr happlication⟩, rfl⟩

theorem wants_iff {d : WebhookDelivery τ} : query.wants tenantId d = true ↔
    d.tenantId = tenantId ∧ (∀ id ∈ query.endpointId, d.endpointId = id) ∧
      ∀ status ∈ query.status, d.status = status := by
  unfold DeliveryQuery.wants
  cases query.endpointId <;> cases query.status <;> simp [and_assoc]

theorem readable_iff (hnamed : DeliveriesNamed db) {d : WebhookDelivery τ} :
    Readable db tenantId application query d ↔
      d ∈ wantedIn db tenantId query ∧ OwnedEndpoint db tenantId application d.endpointId := by
  rw [wantedIn, Table.mem_find, wants_iff]
  constructor
  · rintro ⟨hstored, htenant, howned, hendpoint, hstatus⟩
    exact ⟨⟨⟨d.id, hstored⟩, htenant, hendpoint, hstatus⟩, howned⟩
  · rintro ⟨⟨⟨id, hget⟩, htenant, hendpoint, hstatus⟩, howned⟩
    exact ⟨hnamed.named id d hget ▸ hget, htenant, howned, hendpoint, hstatus⟩

/-- What is read is what the page keeps; nothing else of the page is owned. -/
theorem mem_readIn {d : WebhookDelivery τ} : d ∈ readIn db tenantId application query ↔
    d ∈ (wantedIn db tenantId query).take query.limit ∧
      OwnedEndpoint db tenantId application d.endpointId := by
  unfold readIn
  split
  · next hforeign =>
    obtain ⟨id, hid, hnot⟩ := (Option.any_eq_true _ _).mp hforeign
    refine ⟨fun h => absurd h List.not_mem_nil, fun ⟨hmem, howned⟩ => ?_⟩
    -- a delivery that is asked for is to the endpoint of the query
    have hwants := (Table.mem_find.mp (List.mem_of_mem_take hmem)).2
    rw [(wants_iff.mp hwants).2.1 id hid, ← contains_ownedIn] at howned
    rw [howned] at hnot
    cases hnot
  · rw [List.mem_filter, contains_ownedIn]

theorem nodup_wantedIn (hnamed : DeliveriesNamed db) :
    ((wantedIn db tenantId query).map WebhookDelivery.id).Nodup :=
  Table.nodup_find_map hnamed.keys fun k k' d d' hget hget' _ _ heq => by
    rw [← hnamed.named k d hget, ← hnamed.named k' d' hget', heq]

theorem nodup_readIn (hnamed : DeliveriesNamed db) :
    ((readIn db tenantId application query).map WebhookDelivery.id).Nodup := by
  unfold readIn
  split
  · exact List.nodup_nil
  · have hpage := (List.take_sublist query.limit (wantedIn db tenantId query)).map
      WebhookDelivery.id
    exact ((List.filter_sublist.map WebhookDelivery.id).trans hpage).nodup (nodup_wantedIn hnamed)

theorem length_readIn_le : (readIn db tenantId application query).length ≤ query.limit := by
  unfold readIn
  split
  · exact Nat.zero_le _
  · exact (List.length_filter_le _ _).trans (List.length_take_le _ _)

/-- A page that is full of this application's deliveries is as long as was asked. -/
theorem length_readIn_eq (hours : ∀ d ∈ (wantedIn db tenantId query).take query.limit,
      OwnedEndpoint db tenantId application d.endpointId)
    (hlong : query.limit ≤ (wantedIn db tenantId query).length) (hpositive : 1 ≤ query.limit) :
    (readIn db tenantId application query).length = query.limit := by
  have hnone : ¬ query.endpointId.any
      (fun id => !(ownedIn db tenantId application).contains id) = true := by
    intro hforeign
    obtain ⟨id, hid, hnot⟩ := (Option.any_eq_true _ _).mp hforeign
    cases hpage : (wantedIn db tenantId query).take query.limit with
    | nil =>
      have hlength := congrArg List.length hpage
      rw [List.length_take, List.length_nil] at hlength
      omega
    | cons d rest =>
      have hmem : d ∈ (wantedIn db tenantId query).take query.limit := by
        rw [hpage]
        exact List.mem_cons_self
      have howned := hours d hmem
      have hwants := (Table.mem_find.mp (List.mem_of_mem_take hmem)).2
      rw [(wants_iff.mp hwants).2.1 id hid, ← contains_ownedIn] at howned
      rw [howned] at hnot
      cases hnot
  unfold readIn
  rw [if_neg hnone, List.filter_eq_self.mpr fun d hd => contains_ownedIn.mpr (hours d hd),
    List.length_take]
  omega

/-- **What it takes** for a short answer to be the whole answer. -/
theorem readIn_whole_iff (hnamed : DeliveriesNamed db) (hpositive : 1 ≤ query.limit) :
    ((readIn db tenantId application query).length < query.limit →
      ∀ d, Readable db tenantId application query d → d ∈ readIn db tenantId application query) ↔
      PageNotCrowded db tenantId application query := by
  constructor
  · intro hwhole
    by_contra hcrowded
    rw [PageNotCrowded, not_or] at hcrowded
    obtain ⟨hforeign, hcut⟩ := hcrowded
    push Not at hforeign hcut
    obtain ⟨other, hother, hnot⟩ := hforeign
    obtain ⟨d, hd, howned⟩ := hcut
    -- a foreign delivery took a place, so the answer is short
    have hshort : (readIn db tenantId application query).length < query.limit := by
      unfold readIn
      split
      · exact hpositive
      · refine Nat.lt_of_lt_of_le (List.length_filter_lt_length_iff_exists.mpr
          ⟨other, hother, fun h => hnot (contains_ownedIn.mp h)⟩) (List.length_take_le _ _)
    have hread := mem_readIn.mp (hwhole hshort d
      ((readable_iff hnamed).mpr ⟨List.mem_of_mem_drop hd, howned⟩))
    have hnodup : (wantedIn db tenantId query).Nodup := (nodup_wantedIn hnamed).of_map
    exact List.disjoint_take_drop hnodup (Nat.le_refl _) hread.1 hd
  · rintro hpage hshort d hd
    obtain ⟨hmem, howned⟩ := (readable_iff hnamed).mp hd
    refine mem_readIn.mpr ⟨?_, howned⟩
    rw [← List.take_append_drop query.limit (wantedIn db tenantId query), List.mem_append] at hmem
    rcases hmem with hmem | hmem
    · exact hmem
    · exfalso
      rcases hpage with hours | hothers
      · have hlong : query.limit ≤ (wantedIn db tenantId query).length := by
          have hpos := List.length_pos_of_mem hmem
          rw [List.length_drop] at hpos
          omega
        rw [length_readIn_eq hours hlong hpositive] at hshort
        exact Nat.lt_irrefl _ hshort
      · exact hothers d hmem howned

end whole

/-- An answer of `readWebhookDeliveries`: only readable deliveries, each once, at most
`limit` of them, and fewer only where there are no others, exactly when the page was not
crowded. -/
def Faithful (db : WebhookTables τ) (tenantId application : String) (query : DeliveryQuery)
    (rows : List (WebhookDelivery τ)) : Prop :=
  (∀ d ∈ rows, Readable db tenantId application query d) ∧
    (rows.map WebhookDelivery.id).Nodup ∧ rows.length ≤ query.limit ∧
    (rows.length < query.limit → ∀ d, Readable db tenantId application query d → d ∈ rows)

omit [Timestamp τ] in
theorem faithful_iff {db : WebhookTables τ} (hnamed : DeliveriesNamed db)
    {tenantId application : String} {query : DeliveryQuery} (hpositive : 1 ≤ query.limit) :
    Faithful db tenantId application query (readIn db tenantId application query) ↔
      PageNotCrowded db tenantId application query := by
  rw [← readIn_whole_iff hnamed hpositive]
  constructor
  · rintro ⟨-, -, -, hwhole⟩
    exact hwhole
  · intro hwhole
    refine ⟨fun d hd => ?_, nodup_readIn hnamed, length_readIn_le, hwhole⟩
    obtain ⟨hmem, howned⟩ := mem_readIn.mp hd
    exact (readable_iff hnamed).mpr ⟨List.mem_of_mem_take hmem, howned⟩

/-- Whatever a store's pages are, its `page` method answers with the first matching
deliveries; and whatever the host decides, with or without that method, what
`readWebhookDeliveries` answers with is readable, without duplicates and bounded, and is
cut short only where nothing else is readable exactly when the page was not crowded by
deliveries to other applications. -/
theorem deliveries_are_read_to_the_limit (service : WebhookService) (paged : Bool)
    (input : WebhookDeliveryQueryInput) (caller : PrincipalInput) (w : World τ)
    (hnamed : DeliveriesNamed w.webhooks) :
    (∀ (engine : BoundedQuery (WebhookDelivery τ)),
      Enumerates engine (w.webhooks.deliveries.find fun _ => true) →
      ∀ tenantId (query : DeliveryQuery), query.Checked →
      ∃ enough, ∀ fuel ≥ enough, ∃ page,
        boundedFind fuel engine (query.wants tenantId) query.limit = some page ∧
        WebhookOp.exec w.clock w.webhooks
          (.pageDeliveries tenantId query.endpointId query.status query.limit) =
            (.ok page, w.webhooks)) ∧
    (service.readWebhookDeliveries paged input caller).Ensures (alone τ) w (fun r _ =>
      ∀ rows, r = .ok rows → ∃ gateway principal hasScopes query,
        service.authority = some gateway ∧ caller = .object principal hasScopes ∧
        deliveryQuery input = .ok query ∧
        (∀ d ∈ rows, Readable w.webhooks principal.tenantId gateway.application query d) ∧
        (rows.map WebhookDelivery.id).Nodup ∧ rows.length ≤ query.limit ∧
        (Faithful w.webhooks principal.tenantId gateway.application query rows ↔
          PageNotCrowded w.webhooks principal.tenantId gateway.application query)) := by
  constructor
  · intro engine hengine tenantId query hquery
    refine ⟨(w.webhooks.deliveries.find fun _ => true).length + 1, fun fuel hfuel =>
      ⟨_, page_is_bounded_find hengine tenantId (by omega), ?_⟩⟩
    exact exec_pageDeliveries hquery w.clock w.webhooks tenantId
  · refine (ensures_readWebhookDeliveries service paged input caller w).mono ?_
    rintro r w' ⟨-, hanswer⟩ rows hr
    obtain ⟨gateway, principal, hasScopes, query, hauthority, hcaller, hquery, rfl⟩ :=
      hanswer rows hr
    refine ⟨gateway, principal, hasScopes, query, hauthority, hcaller, hquery, fun d hd => ?_,
      nodup_readIn hnamed, length_readIn_le,
      faithful_iff hnamed (deliveryQuery_checked hquery).positive⟩
    obtain ⟨hmem, howned⟩ := mem_readIn.mp hd
    exact (readable_iff hnamed).mpr ⟨List.mem_of_mem_take hmem, howned⟩

/-! ## A crowded page -/

/-- A reader of the tenant. -/
def deliveryReader : VerifiedPrincipal :=
  mintedPrincipal { principalId := "ada", principalType := "user", tenantId := "acme" } .host 0

def crowdedService : WebhookService where
  authority := some { application := "app", authorizer := true, credentials := false }

/-- An endpoint of an application. -/
def endpointOf (id application : String) : WebhookEndpoint Nat where
  id := id
  tenantId := "acme"
  applicationId := some application
  url := "https://example.com/"
  events := ["invoice.paid"]
  createdAt := 0
  createdBy := "ada"

/-- A delivery to an endpoint. -/
def deliveryTo (id endpointId : String) : WebhookDelivery Nat where
  id := id
  tenantId := "acme"
  endpointId := endpointId
  eventId := "event"
  eventType := "invoice.paid"
  status := .pending
  attemptCount := 0
  createdAt := 0

/-- A delivery to another application's endpoint, and then one to this application's. -/
def crowded : World Nat where
  clock := 0
  nextRef := 1
  verified := [deliveryReader]
  webhooks := {
    endpoints := (Table.empty.put "ours" (endpointOf "ours" "app")).put "theirs"
      (endpointOf "theirs" "other")
    deliveries := (Table.empty.put "first" (deliveryTo "first" "theirs")).put "second"
      (deliveryTo "second" "ours") }

/-- The reader is allowed to, and every call goes through. -/
def readAllowed : List Choice :=
  let decision : JsValue := .obj [
    ("decision_id", .str "d1"), ("allowed", .bool true),
    ("capability", .str "webhooks.deliveries.read"), ("tenant_id", .str "acme"),
    ("application_id", .str "app"), ("subject", .obj [("id", .str "ada")]),
    ("resource", .obj [("uri", .str "appport://app/tenants/acme/webhook_delivery/*")])]
  [.proceed, .draw "request", .proceed, .proceed, .proceed, .proceed,
    .decision false (.ok decision), .proceed, .proceed, .proceed, .proceed, .proceed, .draw "row",
    .proceed, .proceed, .proceed, .proceed, .proceed, .proceed, .proceed]

theorem crowded_named : DeliveriesNamed crowded.webhooks := by
  refine ⟨by decide, fun id d h => ?_⟩
  simp only [crowded, Table.get_put, Table.get_empty] at h
  split at h
  · next hid => rw [hid, ← Option.some.inj h]; rfl
  split at h
  · next hid => rw [hid, ← Option.some.inj h]; rfl
  · cases h

theorem crowded_readable :
    Readable crowded.webhooks "acme" "app" { limit := 1 } (deliveryTo "second" "ours") where
  stored := rfl
  ofTenant := rfl
  owned := ⟨"ours", endpointOf "ours" "app", rfl, rfl, rfl, rfl⟩
  endpointId := fun _ h => nomatch h
  status := fun _ h => nomatch h

/-- With a limit of one the answer is empty, and a delivery is hidden. -/
theorem crowded_page_hides_a_delivery :
    (∃ w', Task.Settles (S := services Nat) (alone Nat)
      (crowdedService.readWebhookDeliveries true { limit := .num 1 } (.of deliveryReader)) crowded
      (.ok []) w') ∧
    deliveryQuery { limit := .num 1 } = .ok { limit := 1 } ∧ DeliveriesNamed crowded.webhooks ∧
    Readable crowded.webhooks "acme" "app" { limit := 1 } (deliveryTo "second" "ours") := by
  have hempty : ((Task.after (S := services Nat) AppOp.exec readAllowed
      (crowdedService.readWebhookDeliveries true { limit := .num 1 } (.of deliveryReader))
      crowded).bind resolvedTo).any List.isEmpty = true := by
    decide +kernel
  obtain ⟨rows, hrows, hnil⟩ := (Option.any_eq_true _ _).mp hempty
  obtain rfl := List.isEmpty_iff.mp hnil
  exact ⟨settles_of_after hrows, by decide +kernel, crowded_named, crowded_readable⟩

/-- What holds of every read holds of that one. -/
theorem deliveries_are_read_crowded :
    (crowdedService.readWebhookDeliveries true { limit := .num 1 } (.of deliveryReader)).Ensures
      (alone Nat) crowded (fun r _ => ∀ rows, r = .ok rows →
        ∃ gateway principal hasScopes query, crowdedService.authority = some gateway ∧
          PrincipalInput.of deliveryReader = .object principal hasScopes ∧
          deliveryQuery { limit := .num 1 } = .ok query ∧
          (∀ d ∈ rows, Readable crowded.webhooks principal.tenantId gateway.application query d) ∧
          (rows.map WebhookDelivery.id).Nodup ∧ rows.length ≤ query.limit ∧
          (Faithful crowded.webhooks principal.tenantId gateway.application query rows ↔
            PageNotCrowded crowded.webhooks principal.tenantId gateway.application query)) :=
  (deliveries_are_read_to_the_limit crowdedService true { limit := .num 1 } (.of deliveryReader)
    crowded crowded_named).2

end AppPort
