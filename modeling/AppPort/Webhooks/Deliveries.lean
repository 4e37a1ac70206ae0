import AppPort.Webhooks.Protocol

/-!
# Deliveries

What any interleaving of the webhook service can do to a delivery. `DeliveryChanged` is
the record's side: one call creates it, merges one update into it, or leaves it alone.
`AttemptPhase` and `AttemptStep` are the caller's side: which delivery a process has
read, which it has claimed, and whether the attempt it claimed it for has begun.
`attemptProtocol_obeyed` connects the two to the code, and `AttemptBase` says that a
process that writes writes into the record it holds.
-/

namespace AppPort

open Effects Effects.Platform

variable {τ : Type} [Timestamp τ]

/-! ## The record's side -/

/-- The merge of an update, as a conditional write stores it. -/
def DeliveryUpdate.written (u : DeliveryUpdate τ) (d : WebhookDelivery τ) : WebhookDelivery τ :=
  { u.apply d with version := d.version + 1 }

section written

variable {u : DeliveryUpdate τ} {d : WebhookDelivery τ}

@[simp] theorem written_delivery_id : (u.written d).id = d.id := rfl

@[simp] theorem written_delivery_status : (u.written d).status = u.status.getD d.status := rfl

@[simp] theorem written_delivery_attemptCount :
    (u.written d).attemptCount = u.attemptCount.getD d.attemptCount := rfl

@[simp] theorem written_delivery_version : (u.written d).version = d.version + 1 := rfl

end written

/-- What one call can do to the delivery under `id`. -/
inductive DeliveryChanged (id : String) (op : AppOp τ) (w w' : World τ) : Prop where
  | same (hget : w'.webhooks.deliveries.get id = w.webhooks.deliveries.get id)
  | created (d : WebhookDelivery τ)
      (hop : (∃ ds, op = .webhooks (.createDeliveries ds)) ∨ ∃ ops, op = .commit ops)
      (hid : d.id = id) (habsent : w.webhooks.deliveries.get id = none)
      (hget : w'.webhooks.deliveries.get id = some d)
  | merged (d : WebhookDelivery τ) (u : DeliveryUpdate τ)
      (hop : op = .webhooks (.updateDelivery id d.version u) ∨
        op = .webhooks (.claimDelivery id d.version) ∧ u = claimDeliveryUpdate w.clock)
      (hold : w.webhooks.deliveries.get id = some d)
      (hget : w'.webhooks.deliveries.get id = some (u.written d))

/-- A conditional write merges under the expected version, or writes nothing. -/
theorem updateDelivery_eq {deliveries deliveries' : Table String (WebhookDelivery τ)} {id : String}
    {v : Nat} {u : DeliveryUpdate τ} {r : Option (WebhookDelivery τ)}
    (h : deliveries.updateIfVersion id v u.apply = (r, deliveries')) :
    (∃ d, deliveries.get id = some d ∧ d.version = v ∧ r = some (u.written d) ∧
      deliveries' = deliveries.put id (u.written d)) ∨ r = none ∧ deliveries' = deliveries := by
  rcases Table.updateIfVersion_eq h with ⟨d, hget, hv, hr, ht⟩ | hnone
  · left
    have hwritten : Versioned.withVersion (u.apply d) (v + 1) = u.written d := by
      rw [withVersion_delivery, DeliveryUpdate.written, ← hv, version_delivery]
    exact ⟨d, hget, hv, hwritten ▸ hr, hwritten ▸ ht⟩
  · exact .inr hnone

/-- A queued operation stores a delivery under an absent id, or leaves the deliveries alone. -/
theorem TransactionOperation.apply_deliveries {op : TransactionOperation τ} {w w' : World τ}
    (h : op.apply w = some w') :
    (∃ d, w.webhooks.deliveries.get d.id = none ∧
      w'.webhooks.deliveries = w.webhooks.deliveries.put d.id d) ∨
    w'.webhooks.deliveries = w.webhooks.deliveries := by
  cases op <;> simp only [TransactionOperation.apply, Option.map_eq_some_iff] at h
  case jobAudit | webhookAudit =>
    cases h
    exact .inr rfl
  case delivery d =>
    obtain ⟨t, ht, rfl⟩ := h
    obtain ⟨habsent, rfl⟩ := Table.insertAbsent_eq_some ht
    exact .inl ⟨d, habsent, rfl⟩
  all_goals
    obtain ⟨t, -, rfl⟩ := h
    exact .inr rfl

/-- Nothing was stored under the ids a commit stores deliveries under. -/
theorem applyAll_delivery {id : String} {ops : List (TransactionOperation τ)} {w w' : World τ}
    (h : applyAll w ops = some w') :
    w'.webhooks.deliveries.get id = w.webhooks.deliveries.get id ∨
      w.webhooks.deliveries.get id = none ∧
        ∃ d, d.id = id ∧ w'.webhooks.deliveries.get id = some d := by
  induction ops generalizing w with
  | nil =>
    obtain rfl := Option.some.inj h
    exact .inl rfl
  | cons op rest ih =>
    simp only [applyAll] at h
    cases hop : op.apply w with
    | none =>
      rw [hop] at h
      cases h
    | some w₁ =>
      rw [hop] at h
      rcases op.apply_deliveries hop with ⟨d, habsent, hput⟩ | hsame
      · by_cases hid : id = d.id
        · subst hid
          have hget : w₁.webhooks.deliveries.get d.id = some d := by rw [hput, Table.get_put_same]
          rcases ih h with hlater | ⟨hnone, -⟩
          · exact .inr ⟨habsent, d, rfl, hlater.trans hget⟩
          · rw [hget] at hnone
            cases hnone
        · have hget : w₁.webhooks.deliveries.get id = w.webhooks.deliveries.get id := by
            rw [hput, Table.get_put_other _ _ hid]
          rw [← hget]
          exact ih h
      · rw [← hsame]
        exact ih h

/-- **What one call can do to a delivery.** -/
theorem exec_delivery {op : AppOp τ} {choice : Choice} {w w' : World τ}
    {res : Except JsError (op.Out τ)} (h : op.exec choice w = some (res, w')) (id : String) :
    DeliveryChanged id op w w' := by
  have hstored : ∀ {β : Type} {r : Except JsError β × World τ} {res : Except JsError β},
      DeliveryChanged id op w r.2 → stored choice w r = some (res, w') →
      DeliveryChanged id op w w' := by
    intro β r res hr hs
    rcases stored_cases hs with ⟨-, rfl⟩ | ⟨_, -, rfl | rfl⟩
    · exact hr
    · exact hr
    · exact .same rfl
  cases op with
  | webhooks o =>
    simp only [AppOp.exec] at h
    rcases hexec : o.exec w.clock w.webhooks with ⟨r, webhooks'⟩
    rw [hexec] at h
    refine hstored ?_ h
    cases o with
    | createDeliveries ds =>
      simp only [WebhookOp.exec] at hexec
      split at hexec
      · next t hinsert =>
        cases hexec
        rcases get_insertAll hinsert id with hsame | ⟨hnone, d, -, hid, hget⟩
        · exact .same hsame
        · exact .created d (.inl ⟨ds, rfl⟩) hid hnone hget
      · cases hexec
        exact .same rfl
    | updateDelivery key v u =>
      simp only [WebhookOp.exec] at hexec
      rcases hup : w.webhooks.deliveries.updateIfVersion key v u.apply with ⟨r', t⟩
      rw [hup] at hexec
      cases hexec
      rcases updateDelivery_eq hup with ⟨d, hget, rfl, -, rfl⟩ | ⟨-, rfl⟩
      · by_cases hid : id = key
        · subst hid
          exact .merged d u (.inl rfl) hget (Table.get_put_same _ _ _)
        · exact .same (Table.get_put_other _ _ hid)
      · exact .same rfl
    | claimDelivery key v =>
      simp only [WebhookOp.exec] at hexec
      rcases hup : w.webhooks.deliveries.updateIfVersion key v (claimDeliveryUpdate w.clock).apply
        with ⟨r', t⟩
      rw [hup] at hexec
      cases hexec
      rcases updateDelivery_eq hup with ⟨d, hget, rfl, -, rfl⟩ | ⟨-, rfl⟩
      · by_cases hid : id = key
        · subst hid
          exact .merged d _ (.inr ⟨rfl, rfl⟩) hget (Table.get_put_same _ _ _)
        · exact .same (Table.get_put_other _ _ hid)
      · exact .same rfl
    | createEndpoint | createIntegration | acceptInbound =>
      simp only [WebhookOp.exec] at hexec
      split at hexec <;>
      · cases hexec
        exact .same rfl
    | disableEndpoint =>
      simp only [WebhookOp.exec] at hexec
      cases hexec
      exact .same rfl
    | _ =>
      cases hexec
      exact .same rfl
  | jobs o => exact hstored (.same rfl) h
  | schedules o => exact hstored (.same rfl) h
  | notifications o => exact hstored (.same rfl) h
  | apiKeys o => exact hstored (.same rfl) h
  | configuration o => exact hstored (.same rfl) h
  | secretMetadata o => exact hstored (.same rfl) h
  | audit o => cases o <;> exact hstored (.same rfl) h
  | commit ops =>
    refine hstored ?_ h
    split
    · next w₁ hall =>
      rcases applyAll_delivery hall with hsame | ⟨hnone, d, hid, hget⟩
      · exact .same hsame
      · exact .created d (.inr ⟨ops, rfl⟩) hid hnone hget
    · exact .same rfl
  | authority o => exact .same (by rw [(o.exec_stores h).webhooks])
  | host o => exact .same (by rw [o.exec_world h])

/-- A read that finds a delivery finds the stored one, and writes nothing. -/
theorem exec_getDelivery {id : String} {choice : Choice} {w w' : World τ} {d : WebhookDelivery τ}
    (h : (AppOp.webhooks (.getDelivery id)).exec choice w = some (.ok (some d), w')) :
    w.webhooks.deliveries.get id = some d ∧ w'.webhooks = w.webhooks := by
  simp only [AppOp.exec, WebhookOp.exec] at h
  rcases stored_cases h with ⟨hres, rfl⟩ | ⟨message, hres, -⟩
  · exact ⟨(Except.ok.inj hres).symm, rfl⟩
  · cases hres

/-- A claim that is answered with a record stored it. -/
theorem exec_claimDelivery {id : String} {v : Nat} {choice : Choice} {w w' : World τ}
    {claimed : WebhookDelivery τ}
    (h : (AppOp.webhooks (.claimDelivery id v)).exec choice w = some (.ok (some claimed), w')) :
    ∃ d, w.webhooks.deliveries.get id = some d ∧ d.version = v ∧
      claimed = (claimDeliveryUpdate w.clock).written d ∧
      w'.webhooks.deliveries.get id = some claimed := by
  simp only [AppOp.exec, WebhookOp.exec] at h
  rcases hup : w.webhooks.deliveries.updateIfVersion id v (claimDeliveryUpdate w.clock).apply
    with ⟨r, t⟩
  rw [hup] at h
  rcases stored_cases h with ⟨hres, rfl⟩ | ⟨message, hres, -⟩
  · rcases updateDelivery_eq hup with ⟨d, hget, hv, hr, ht⟩ | ⟨hr, -⟩
    · have hclaimed : r = some claimed := (Except.ok.inj hres).symm
      rw [hr] at hclaimed
      obtain rfl := Option.some.inj hclaimed
      refine ⟨d, hget, hv, rfl, ?_⟩
      show t.get id = _
      rw [ht, Table.get_put_same]
    · have hclaimed : r = some claimed := (Except.ok.inj hres).symm
      rw [hr] at hclaimed
      cases hclaimed
  · cases hres

/-! ## The caller's side -/

/-- The entry points that attempt deliveries. -/
def WebhookEntry.delivers : WebhookEntry τ → Bool
  | .deliverWebhook .. | .managedRound _ => true
  | _ => false

/-- Where a process stands with a delivery. -/
inductive AttemptPhase (τ : Type) where
  | idle
  /-- `deliverWebhook` read it. -/
  | read (id : String) (d : WebhookDelivery τ)
  /-- It claimed it, reading `name` as its id; this is the record since. -/
  | claimed (id name : String) (d : WebhookDelivery τ)
  /-- The principal of the attempt was minted. -/
  | begun (id : String) (d : WebhookDelivery τ)
  /-- `replayWebhookDelivery` read it. -/
  | owned (id : String) (d : WebhookDelivery τ)

/-- Calls that neither read one delivery, nor write any, nor mint a principal. -/
def AppOp.leavesAttempts : AppOp τ → Bool
  | .webhooks (.getDelivery _) | .webhooks (.createDeliveries _) | .webhooks (.claimDelivery ..)
  | .webhooks (.updateDelivery ..) | .commit _ | .authority (.mint _ _) => false
  | _ => true

/-- **The protocol of one process.** -/
inductive AttemptStep (node : NodeRuntime) :
    AttemptPhase τ → (webhookPlatform node τ).Step → AttemptPhase τ → Prop where
  | quiet {ph : AttemptPhase τ} {step : (webhookPlatform node τ).Step}
    (hop : step.op.leavesAttempts = true ∨
      step.call.entry.delivers = false ∧ step.op.handlesDeliveries = false) : AttemptStep node ph step ph
  | create {ph : AttemptPhase τ} {call : WebhookCall τ} {op : AppOp τ}
    {res : Except JsError (op.Out τ)} {before after : World τ}
    (hop : (∃ ds, op = .webhooks (.createDeliveries ds)) ∨ ∃ ops, op = .commit ops) :
    AttemptStep node ph ⟨call, op, res, before, after⟩ ph
  | fetch {ph : AttemptPhase τ} {call : WebhookCall τ} {id : String}
    {res : Except JsError (Option (WebhookDelivery τ))} {before after : World τ}
    (hcall : call.entry.delivers = true) :
    AttemptStep node ph ⟨call, .webhooks (.getDelivery id), res, before, after⟩
      (match res with | .ok (some d) => .read id d | _ => .idle)
  | own {call : WebhookCall τ} {id : String} {res : Except JsError (Option (WebhookDelivery τ))}
    {before after : World τ} (hcall : call.entry.delivers = false) :
    AttemptStep node .idle ⟨call, .webhooks (.getDelivery id), res, before, after⟩
      (match res with | .ok (some d) => .owned id d | _ => .idle)
  /-- It is failed without being claimed. -/
  | refuse {call : WebhookCall τ} {id : String} {d : WebhookDelivery τ} {u : DeliveryUpdate τ}
    {res : Except JsError (Option (WebhookDelivery τ))} {before after : World τ}
    (hidle : d.status ≠ .delivering) (hstatus : u.status = some .failed)
    (hcount : u.attemptCount = none) :
    AttemptStep node (.read id d) ⟨call, .webhooks (.updateDelivery id d.version u), res, before, after⟩
      .idle
  | claim {call : WebhookCall τ} {id : String} {d : WebhookDelivery τ}
    {res : Except JsError (Option (WebhookDelivery τ))} {before after : World τ}
    (hidle : d.status ≠ .delivering) :
    AttemptStep node (.read id d) ⟨call, .webhooks (.claimDelivery id d.version), res, before, after⟩
      (match res with | .ok (some claimed) => .claimed id d.id claimed | _ => .idle)
  /-- The attempt begins: its principal is minted, with its run id. -/
  | begin_ {call : WebhookCall τ} {id name : String} {d : WebhookDelivery τ}
    {claims : PrincipalClaims} {res : Except JsError VerifiedPrincipal} {before after : World τ}
    (hcall : call.entry.delivers = true)
    (hrun : claims.runId = some (name ++ ":" ++ toString (d.attemptCount + 1))) :
    AttemptStep node (.claimed id name d) ⟨call, .authority (.mint claims .delivery), res, before, after⟩
      (.begun id d)
  | settle {call : WebhookCall τ} {id key : String} {d : WebhookDelivery τ} {u : DeliveryUpdate τ}
    {res : Except JsError (Option (WebhookDelivery τ))} {before after : World τ}
    (hkey : key = d.id) (hstatus : u.status ≠ some .pending ∧ u.status ≠ some .delivering)
    (hcount : u.attemptCount = none ∨ u.attemptCount = some (d.attemptCount + 1)) :
    AttemptStep node (.begun id d)
      ⟨call, .webhooks (.updateDelivery key d.version u), res, before, after⟩ (.begun id d)
  | reset {call : WebhookCall τ} {id : String} {d : WebhookDelivery τ} {principal : DurablePrincipal}
    {res : Except JsError (Option (WebhookDelivery τ))} {before after : World τ} :
    AttemptStep node (.owned id d)
      ⟨call, .webhooks (.updateDelivery id d.version (WebhookService.replayUpdate principal)), res,
        before, after⟩ .idle

/-- The protocol as a discipline of the platform. -/
abbrev attemptProtocol (node : NodeRuntime) (τ : Type) [Timestamp τ] :
    Discipline (webhookPlatform node τ) where
  Phase := AttemptPhase τ
  start _ := .idle
  next := AttemptStep node
  final _ _ _ := True

/-! ### Conformance -/

section conformance

variable {node : NodeRuntime} {call : WebhookCall τ} {ph : AttemptPhase τ} {α : Type}

/-- Calls that leave every phase as it is. -/
def quietAttemptCalls : Set (AppOp τ) := {op | op.leavesAttempts = true}

omit [Timestamp τ] in
theorem gateway_quietAttempt : (gatewayCalls : Set (AppOp τ)) ⊆ quietAttemptCalls := by
  rintro op ⟨o, rfl, hidentifies⟩
  cases o with
  | mint => cases hidentifies
  | _ => rfl

/-- The task makes calls of the protocol. -/
def Attempts (node : NodeRuntime) (call : WebhookCall τ) (t : Svc τ α) (ph : AttemptPhase τ) : Prop :=
  (attemptProtocol node τ).Conforms call t ph (fun _ _ => True)

theorem Attempts.of_quiet {t : Svc τ α} (ht : Task.Uses (S := services τ) quietAttemptCalls t) :
    Attempts node call t ph := by
  refine Discipline.Conforms.mono (fun _ _ _ => trivial) (Discipline.Conforms.of_idle (ht.mono ?_))
  intro op hop choice before res after _
  exact .quiet (.inl hop)

/-- Quiet calls, and then a task from the same phase. -/
theorem Attempts.after {β : Type} {t : Svc τ α} {f : α → Svc τ β}
    (ht : Task.Uses (S := services τ) quietAttemptCalls t)
    (hf : ∀ a, Attempts node call (f a) ph) : Attempts node call (t.bind f) ph := by
  refine Discipline.Conforms.bind (Discipline.Conforms.of_idle (ht.mono ?_)) ?_ (fun _ _ _ => trivial)
  · intro op hop choice before res after _
    exact .quiet (.inl hop)
  · rintro a ph' rfl
    exact hf a

/-- A task, and then one that conforms wherever it is entered. -/
theorem Attempts.bind {β : Type} {t : Svc τ α} {f : α → Svc τ β} (ht : Attempts node call t ph)
    (hf : ∀ a ph', Attempts node call (f a) ph') : Attempts node call (t.bind f) ph :=
  Discipline.Conforms.bind ht (fun a ph' _ => hf a ph') (fun _ _ _ => trivial)

/-- One call of the protocol, and what follows its answer. -/
theorem Attempts.await {op : AppOp τ} {f : op.Out τ → Svc τ α}
    (h : ∀ res before after, ∃ ph', AttemptStep node ph ⟨call, op, res, before, after⟩ ph' ∧
      ∀ a, res = .ok a → Attempts node call (f a) ph') :
    Attempts node call ((Task.perform (S := services τ) op).bind f) ph := by
  refine Discipline.Conforms.await_bind ?_
  intro choice before res after _
  obtain ⟨ph', hnext, hrest⟩ := h res before after
  refine ⟨ph', hnext, ?_⟩
  cases res with
  | ok a => exact hrest a rfl
  | error e => trivial

/-- A check that may throw, and what follows. -/
theorem attempts_check {β : Type} {r : Except JsError α} {f : α → Svc τ β}
    (hf : ∀ a, Attempts node call (f a) ph) : Attempts node call ((check r).bind f) ph := by
  cases r with
  | ok a => exact hf a
  | error e => trivial

namespace WebhookService

omit [Timestamp τ] in
theorem quiet_now : Task.Uses (S := services τ) quietAttemptCalls (now (τ := τ)) :=
  consults_now.mono (consultCalls_gateway.trans gateway_quietAttempt)

omit [Timestamp τ] in
theorem quiet_audit (fields : AuditFields) :
    Task.Uses (S := services τ) quietAttemptCalls (audit fields) := by
  refine Task.Uses.bind (consults_randomUUID.mono (consultCalls_gateway.trans gateway_quietAttempt))
    fun id => ?_
  exact Task.Uses.bind quiet_now fun t => Task.uses_perform rfl

/-- One settlement of the attempt that has begun. -/
theorem attempts_settle {id : String} {claimed : WebhookDelivery τ} {u : DeliveryUpdate τ}
    (hstatus : u.status ≠ some .pending ∧ u.status ≠ some .delivering)
    (hcount : u.attemptCount = none ∨ u.attemptCount = some (claimed.attemptCount + 1)) :
    Attempts node call (settle claimed u) (.begun id claimed) :=
  Attempts.await fun _ _ _ => ⟨_, .settle rfl hstatus hcount, fun _ _ => trivial⟩

variable (service : WebhookService)

theorem attempts_recordAttempt {id : String} (claimed : WebhookDelivery τ)
    (result : WebhookDeliveryResult) :
    Attempts node call (service.recordAttempt claimed result) (.begun id claimed) := by
  have hsettled : ∀ u type success reason, u.status ≠ some .pending ∧ u.status ≠ some .delivering →
      (u.attemptCount = none ∨ u.attemptCount = some (claimed.attemptCount + 1)) →
      Attempts node call ((settle claimed u).bind fun _ =>
        auditSettled claimed type success reason) (.begun id claimed) := by
    intro u type success reason hstatus hcount
    exact (attempts_settle hstatus hcount).bind fun _ ph' => .of_quiet (quiet_audit _)
  have hretried : ∀ ms (u : τ → DeliveryUpdate τ),
      (∀ t, (u t).status ≠ some .pending ∧ (u t).status ≠ some .delivering) →
      (∀ t, (u t).attemptCount = none ∨ (u t).attemptCount = some (claimed.attemptCount + 1)) →
      Attempts node call (now.bind fun t => (check (laterThan t ms)).bind fun at_ =>
        settle claimed (u at_)) (.begun id claimed) := by
    intro ms u hstatus hcount
    exact .after quiet_now fun t => attempts_check fun at_ =>
      attempts_settle (hstatus at_) (hcount at_)
  unfold recordAttempt
  refine Attempts.after quiet_now fun t => ?_
  split
  · exact hsettled _ _ _ _ (by simp) (.inr rfl)
  split
  · exact hsettled _ _ _ _ (by simp) (.inl rfl)
  · exact hsettled _ _ _ _ (by simp) (.inl rfl)
  split
  · exact hretried INITIAL_RETRY_DELAY_MS _ (fun _ => by simp) fun _ => .inl rfl
  split
  · exact hsettled _ _ _ _ (by simp) (.inr rfl)
  · exact hretried (retryDelayMs claimed.attemptCount) _ (fun _ => by simp) fun _ => .inr rfl

variable (node)

/-- One claimed attempt: its principal is minted first. -/
theorem attempts_attemptClaimed (gateway : ServiceGateway) {id tenantId : String}
    {delivery claimed : WebhookDelivery τ} (hentry : call.entry.delivers = true)
    (durable : DurablePrincipal) (endpoint : WebhookEndpoint τ) (credentialRef : String) :
    Attempts node call (service.attemptClaimed node gateway delivery claimed durable endpoint
      credentialRef tenantId) (.claimed id delivery.id claimed) := by
  unfold attemptClaimed mintVerifiedPrincipal
  split
  · trivial
  refine Attempts.await fun res before after => ⟨_, .begin_ hentry rfl, fun principal _ => ?_⟩
  refine Attempts.after ?_ fun result =>
    (service.attempts_recordAttempt claimed result).bind fun _ _ => trivial
  refine Task.Uses.tryCatch ?_ fun error => trivial
  split
  · trivial
  · refine gateway.gateway_execute gateway_quietAttempt _ _ _ _ fun _ tools => ?_
    unfold attemptEffect
    refine Task.Uses.bind (Task.uses_perform rfl) fun destination => ?_
    refine Task.Uses.bind (gateway.gateway_withCredential gateway_quietAttempt (fun _ => rfl)
      tools _ _ fun value => Task.Uses.bind (Task.uses_settled _ _) fun secret => trivial)
      fun signature => ?_
    refine Task.Uses.bind (Task.uses_perform rfl) fun reply => ?_
    dsimp only
    split <;> trivial

/-- A delivery that is not claimed is failed, and something quiet follows. -/
theorem attempts_failUnclaimed {id : String} {delivery : WebhookDelivery τ}
    (hidle : delivery.status ≠ .delivering) (lastError : String) :
    Attempts node call (failUnclaimed id delivery lastError) (.read id delivery) :=
  Attempts.await fun _ _ _ => ⟨_, .refuse hidle rfl rfl, fun _ _ => trivial⟩

theorem attempts_deliverTo (gateway : ServiceGateway) {id tenantId : String}
    {delivery : WebhookDelivery τ} (hentry : call.entry.delivers = true)
    (hidle : delivery.status ≠ .delivering) (durable : DurablePrincipal) (endpoint : WebhookEndpoint τ)
    (credentialRef : String) :
    Attempts node call (service.deliverTo node gateway tenantId id delivery durable endpoint
      credentialRef) (.read id delivery) := by
  unfold deliverTo
  refine Attempts.after ((gateway.gateway_attest _ _).attempt.mono gateway_quietAttempt)
    fun attested => ?_
  split
  · refine (attempts_failUnclaimed node hidle _).bind fun _ ph' => ?_
    exact .after (quiet_audit _) fun _ => trivial
  · refine Attempts.await fun res before after => ⟨_, .claim hidle, ?_⟩
    rintro (_ | claimed) rfl
    · trivial
    · exact service.attempts_attemptClaimed node gateway hentry durable endpoint credentialRef

theorem attempts_deliverRead {id tenantId : String} {delivery : WebhookDelivery τ}
    (hentry : call.entry.delivers = true) (hidle : delivery.status ≠ .delivering) :
    Attempts node call (service.deliverRead node tenantId id delivery) (.read id delivery) := by
  unfold deliverRead
  refine Attempts.after (Task.uses_perform rfl) fun endpoint => ?_
  split
  · trivial
  refine attempts_check fun gateway => ?_
  split
  · trivial
  split
  · exact (attempts_failUnclaimed node hidle _).bind fun _ _ => trivial
  split
  · refine (attempts_failUnclaimed node hidle _).bind fun _ ph' => ?_
    exact .after (quiet_audit _) fun _ => trivial
  split
  · exact (attempts_failUnclaimed node hidle _).bind fun _ _ => trivial
  · exact service.attempts_deliverTo node _ hentry hidle _ _ _

theorem attempts_deliverWebhook (hentry : call.entry.delivers = true) (tenantId id : String) :
    Attempts node call (service.deliverWebhook node tenantId id) ph := by
  unfold deliverWebhook
  refine Attempts.await fun res before after => ⟨_, .fetch hentry, ?_⟩
  rintro (_ | delivery) rfl
  · trivial
  · dsimp only
    split
    · trivial
    split
    · trivial
    · next hstatus =>
      exact service.attempts_deliverRead node hentry fun hdelivering => hstatus (.inr hdelivering)

theorem attempts_managedRound (hentry : call.entry.delivers = true) (tenantId : String) :
    Attempts node call (service.managedRound node tenantId) ph := by
  unfold managedRound
  refine Attempts.after (Task.uses_perform rfl) fun deliveries => Attempts.after quiet_now fun t => ?_
  refine Discipline.Conforms.forEach (I := fun _ => True) ?_ (fun _ _ => trivial) deliveries trivial
  intro delivery ph' _
  split
  · refine Discipline.Conforms.mono ?_ ((service.attempts_deliverWebhook node hentry _ _).bind
      fun _ _ => trivial)
    intro r ph'' _
    cases r <;> trivial
  · trivial

theorem attempts_replayWebhookDelivery (hentry : call.entry.delivers = false)
    (tenantId id : String) (caller : PrincipalInput) :
    Attempts node call (service.replayWebhookDelivery tenantId id caller) .idle := by
  have hconsult : ∀ {β : Type} {t : Svc τ β}, Task.Uses (S := services τ) consultCalls t →
      Task.Uses (S := services τ) quietAttemptCalls t :=
    fun ht => ht.mono (consultCalls_gateway.trans gateway_quietAttempt)
  unfold replayWebhookDelivery
  refine Attempts.after (hconsult (consults_requireVerifiedPrincipal _)) fun principal => ?_
  split
  · trivial
  refine Discipline.Conforms.bind
    (Q := fun r ph' => ∀ d, r = .ok (some d) → ph' = AttemptPhase.owned id d) ?_ ?_ (fun _ _ _ => trivial)
  · refine Discipline.Conforms.await_bind fun choice before res after _ => ⟨_, .own hentry, ?_⟩
    rcases res with e | ⟨_ | d⟩
    · intro d h
      cases h
    · intro d h
      cases h
    · intro d' h
      have hfound : (some d).filter (fun d => d.tenantId == tenantId) = some d' := Except.ok.inj h
      obtain rfl := Option.some.inj (Option.filter_eq_some_iff.mp hfound).1
      rfl
  intro delivery ph' hph
  split
  · trivial
  next delivery =>
  obtain rfl := hph delivery rfl
  refine Attempts.after (Task.uses_perform rfl) fun endpoint => ?_
  split
  · trivial
  split
  · trivial
  refine attempts_check fun gateway => ?_
  split
  · trivial
  refine conforms_execute (Q := fun _ _ => True) ?_ (fun _ => trivial) ?_ (fun _ _ _ => trivial)
    (fun _ _ _ _ _ => trivial) (fun _ _ _ => trivial)
  · intro ph op hop choice before res after _
    exact .quiet (.inl (gateway_quietAttempt hop))
  · intro context _
    refine Attempts.await fun res before after => ⟨_, .reset, ?_⟩
    rintro (_ | updated) rfl
    · trivial
    · exact .after (quiet_audit _) fun _ => trivial

end WebhookService

/-- The calls of everything that attempts and resets no delivery. -/
def otherAttemptCalls : Set (AppOp τ) := {op | op.handlesDeliveries = false ∨
  (∃ ds, op = .webhooks (.createDeliveries ds)) ∨ ∃ ops, op = .commit ops}

theorem Attempts.of_other (hentry : call.entry.delivers = false) {t : Svc τ α}
    (ht : Task.Uses (S := services τ) otherAttemptCalls t) : Attempts node call t ph := by
  refine Discipline.Conforms.mono (fun _ _ _ => trivial) (Discipline.Conforms.of_idle (ht.mono ?_))
  intro op hop choice before res after _
  rcases hop with hquiet | hcreate
  · exact .quiet (.inr ⟨hentry, hquiet⟩)
  · exact .create hcreate

end conformance

/-- Every entry point follows the protocol. -/
theorem attemptProtocol_obeyed (node : NodeRuntime) : (attemptProtocol node τ).Obeyed := by
  rintro ⟨service, entry⟩
  have hquiet : WebhookCalls (otherAttemptCalls : Set (AppOp τ)) := ⟨fun _ _ hop _ => .inl hop⟩
  have hinbound : InboundCalls (otherAttemptCalls : Set (AppOp τ)) := by
    refine ⟨hquiet, fun op hop => .inl ?_⟩
    cases op with
    | webhooks o => cases o <;> first | rfl | cases hop
    | host o => cases o <;> first | rfl | cases hop
    | _ => cases hop
  have hother : ∀ {entry : WebhookEntry τ} {t : Svc τ Unit}, entry.delivers = false →
      Task.Uses (S := services τ) otherAttemptCalls t →
      Attempts node ⟨service, entry⟩ t .idle := fun hentry ht => Attempts.of_other hentry ht
  cases entry with
  | createWebhookEndpoint input caller =>
    exact hother rfl ((service.uses_createWebhookEndpoint hquiet ..).bind fun _ => trivial)
  | disableWebhookEndpoint input caller =>
    exact hother rfl ((service.uses_disableWebhookEndpoint hquiet ..).bind fun _ => trivial)
  | emitWebhookEvent input caller =>
    exact hother rfl ((service.uses_emitWebhookEvent hquiet
      (fun ds => .inr (.inl ⟨ds, rfl⟩)) ..).bind fun _ => trivial)
  | deliverWebhook tenantId deliveryId =>
    have hattempts : Attempts node ⟨service, .deliverWebhook tenantId deliveryId⟩
        (service.deliverWebhook (τ := τ) node tenantId deliveryId) .idle :=
      service.attempts_deliverWebhook node rfl tenantId deliveryId
    exact Attempts.bind hattempts fun _ _ => trivial
  | managedRound tenantId => exact service.attempts_managedRound node rfl tenantId
  | replayWebhookDelivery tenantId deliveryId caller =>
    have hattempts : Attempts node ⟨service, .replayWebhookDelivery tenantId deliveryId caller⟩
        (service.replayWebhookDelivery (τ := τ) tenantId deliveryId caller) .idle :=
      service.attempts_replayWebhookDelivery node rfl tenantId deliveryId caller
    exact Attempts.bind hattempts fun _ _ => trivial
  | registerIntegration input caller =>
    exact hother rfl ((service.uses_registerIntegration hquiet ..).bind fun _ => trivial)
  | receiveWebhook request =>
    exact hother rfl ((service.uses_receiveWebhook hinbound node request).bind fun _ => trivial)
  | authorize capability caller resource requestId =>
    exact hother rfl (uses_webhookAuthorize hquiet ..)
  | authenticate claims verifiedBy =>
    exact hother rfl ((hquiet.uses (uses_mintVerifiedPrincipal _ _)).bind fun _ => trivial)
  | transaction cs =>
    exact hother rfl (uses_transaction hquiet.authority (fun _ => hquiet.quiet _ rfl rfl rfl) _ cs
      fun ops _ => .inr (.inr ⟨ops, rfl⟩))

/-! ## What a process knows of the delivery it works on -/

/-- Deliveries are stored under their ids. -/
def KeyedDeliveries (w : World τ) : Prop := ∀ id d, w.webhooks.deliveries.get id = some d → d.id = id

/-- A copy of the delivery under `id`: the stored one is as new, and is the copy while its
version is the copy's. -/
structure HeldWebhook (w : World τ) (id : String) (d : WebhookDelivery τ) : Prop where
  id_eq : d.id = id
  seen : ∃ stored, w.webhooks.deliveries.get id = some stored ∧ d.version ≤ stored.version ∧
    (stored.version = d.version → stored = d)

/-- Deliveries move along their versions. -/
def DeliveriesMove (w w' : World τ) : Prop :=
  ∀ id d, w.webhooks.deliveries.get id = some d → HeldWebhook w' id d

omit [Timestamp τ] in
theorem HeldWebhook.of_get {w : World τ} {id : String} {d : WebhookDelivery τ}
    (hw : KeyedDeliveries w) (hget : w.webhooks.deliveries.get id = some d) : HeldWebhook w id d :=
  ⟨hw id d hget, d, hget, Nat.le_refl _, fun _ => rfl⟩

omit [Timestamp τ] in
theorem HeldWebhook.later {w w' : World τ} {id : String} {d : WebhookDelivery τ}
    (h : HeldWebhook w id d) (hw : DeliveriesMove w w') : HeldWebhook w' id d := by
  obtain ⟨stored, hget, hle, hsame⟩ := h.seen
  obtain ⟨stored', hget', hle', hsame'⟩ := (hw id stored hget).seen
  refine ⟨h.id_eq, stored', hget', hle.trans hle', fun hv => ?_⟩
  -- the version did not move, so neither step moved it
  have hstored : stored.version = d.version := by omega
  have hstored' : stored'.version = stored.version := by omega
  rw [hsame' hstored', hsame hstored]

omit [Timestamp τ] in
/-- Under the version of the copy, the stored delivery is the copy. -/
theorem HeldWebhook.current {w : World τ} {id : String} {d stored : WebhookDelivery τ}
    (h : HeldWebhook w id d) (hget : w.webhooks.deliveries.get id = some stored)
    (hv : stored.version = d.version) : stored = d := by
  obtain ⟨stored', hget', -, hsame⟩ := h.seen
  rw [hget] at hget'
  obtain rfl := Option.some.inj hget'
  exact hsame hv

theorem deliveriesMove_exec {op : AppOp τ} {choice : Choice} {w w' : World τ}
    {res : Except JsError (op.Out τ)} (hw : KeyedDeliveries w)
    (h : op.exec choice w = some (res, w')) : DeliveriesMove w w' := by
  intro id d hget
  rcases exec_delivery h id with hsame | ⟨_, -, -, habsent, -⟩ | ⟨d', u, -, hold, hnew⟩
  · exact ⟨hw id d hget, d, hsame.trans hget, Nat.le_refl _, fun _ => rfl⟩
  · rw [hget] at habsent
    cases habsent
  · rw [hget] at hold
    obtain rfl := Option.some.inj hold
    refine ⟨hw id d hget, _, hnew, Nat.le_succ _, fun hv => ?_⟩
    exact absurd hv (Nat.succ_ne_self _)

theorem keyedDeliveries_exec {op : AppOp τ} {choice : Choice} {w w' : World τ}
    {res : Except JsError (op.Out τ)} (hw : KeyedDeliveries w)
    (h : op.exec choice w = some (res, w')) : KeyedDeliveries w' := by
  intro id d hget
  rcases exec_delivery h id with hsame | ⟨new, -, hid, -, hnew⟩ | ⟨old, u, -, hold, hnew⟩
  · exact hw id d (hsame.symm.trans hget)
  · rw [hget] at hnew
    obtain rfl := Option.some.inj hnew
    exact hid
  · rw [hget] at hnew
    obtain rfl := Option.some.inj hnew
    exact hw id old hold

theorem deliveriesMove_env {move : WebhookEnv τ} {w w' : World τ} (hw : KeyedDeliveries w)
    (h : webhookEnv move w = some w') : DeliveriesMove w w' := by
  intro id d hget
  refine ⟨hw id d hget, d, ?_, Nat.le_refl _, fun _ => rfl⟩
  rw [(webhookEnv_keeps h).1]
  exact hget

/-- What a phase says of the world. -/
def AttemptPhase.Sound (w : World τ) : AttemptPhase τ → Prop
  | .idle => True
  | .read id d | .begun id d | .owned id d => HeldWebhook w id d
  | .claimed id name d => HeldWebhook w id d ∧ name = id

theorem AttemptPhase.Sound.later {w w' : World τ} {ph : AttemptPhase τ} (h : ph.Sound w)
    (hw : DeliveriesMove w w') : ph.Sound w' := by
  cases ph with
  | idle => trivial
  | read | begun | owned => exact HeldWebhook.later h hw
  | claimed => exact ⟨h.1.later hw, h.2⟩

variable {node : NodeRuntime}

theorem AttemptStep.sound {ph ph' : AttemptPhase τ} {step : (webhookPlatform node τ).Step}
    {choice : Choice} (hstep : AttemptStep node ph step ph') (hw : KeyedDeliveries step.before)
    (hph : ph.Sound step.before)
    (hexec : AppOp.exec step.op choice step.before = some (step.res, step.after)) :
    ph'.Sound step.after := by
  have hmove := deliveriesMove_exec hw hexec
  have hw' := keyedDeliveries_exec hw hexec
  cases hstep with
  | quiet => exact hph.later hmove
  | create => exact hph.later hmove
  | refuse | reset => trivial
  | settle => exact HeldWebhook.later hph hmove
  | begin_ => exact hph.1.later hmove
  | @fetch _ call id res before after hcall =>
    rcases res with e | ⟨_ | d⟩
    · trivial
    · trivial
    · obtain ⟨hget, hsame⟩ := exec_getDelivery hexec
      exact HeldWebhook.of_get hw' (hsame ▸ hget)
  | @own call id res before after hcall =>
    rcases res with e | ⟨_ | d⟩
    · trivial
    · trivial
    · obtain ⟨hget, hsame⟩ := exec_getDelivery hexec
      exact HeldWebhook.of_get hw' (hsame ▸ hget)
  | @claim call id d res before after hidle =>
    rcases res with e | ⟨_ | claimed⟩
    · trivial
    · trivial
    · obtain ⟨old, -, -, -, hget⟩ := exec_claimDelivery hexec
      exact ⟨HeldWebhook.of_get hw' hget, HeldWebhook.id_eq hph⟩

/-- **The base invariant.** Deliveries are keyed, and every phase is sound. -/
def AttemptBase (w : World τ) (_ : (webhookPlatform node τ).History)
    (phases : (attemptProtocol node τ).Phases) : Prop :=
  KeyedDeliveries w ∧ ∀ q phq, phases q = some phq → AttemptPhase.Sound w phq

theorem attemptBase_local
    (cond : (webhookPlatform node τ).History → (webhookPlatform node τ).Event → Prop) :
    (attemptProtocol node τ).LocalOver cond (fun _ _ _ => True) (fun w _ => KeyedDeliveries w)
      (fun w _ _ ph => AttemptPhase.Sound w ph) where
  spawn _ _ _ := trivial
  good h := by
    obtain ⟨choice, hexec⟩ := h.exec
    exact keyedDeliveries_exec h.good hexec
  own h := by
    obtain ⟨choice, hexec⟩ := h.exec
    exact h.next.sound h.good h.own hexec
  other h _ hq := by
    obtain ⟨choice, hexec⟩ := h.exec
    exact (h.sound _ _ hq).later (deliveriesMove_exec h.good hexec)
  stopGood hw _ := hw
  stopOther _ h := h
  envGood _ hw henv := by
    intro id d hget
    rw [(webhookEnv_keeps henv).1] at hget
    exact hw id d hget
  envSound _ hw h henv := AttemptPhase.Sound.later h (deliveriesMove_env hw henv)

theorem attemptBase
    (cond : (webhookPlatform node τ).History → (webhookPlatform node τ).Event → Prop) :
    (attemptProtocol node τ).Inductive cond AttemptBase := (attemptBase_local cond).toInductive

/-- **Which write changed a delivery.** The delivery `d` was merged with `u` by a process
that held exactly `d`. -/
inductive DeliveryMerged (id : String) (d : WebhookDelivery τ) (u : DeliveryUpdate τ) :
    AttemptPhase τ → Prop where
  | refused (hidle : d.status ≠ .delivering) (hstatus : u.status = some .failed)
      (hcount : u.attemptCount = none) : DeliveryMerged id d u (.read id d)
  | claimed (hidle : d.status ≠ .delivering) (hstatus : u.status = some .delivering)
      (hcount : u.attemptCount = none) : DeliveryMerged id d u (.read id d)
  | settled (hstatus : u.status ≠ some .pending ∧ u.status ≠ some .delivering)
      (hcount : u.attemptCount = none ∨ u.attemptCount = some (d.attemptCount + 1)) :
      DeliveryMerged id d u (.begun id d)
  | reset {principal : DurablePrincipal} (hu : u = WebhookService.replayUpdate principal) :
      DeliveryMerged id d u (.owned id d)

theorem AttemptStep.merged {ph ph' : AttemptPhase τ} {step : (webhookPlatform node τ).Step}
    {id : String} {d : WebhookDelivery τ} {u : DeliveryUpdate τ}
    (hstep : AttemptStep node ph step ph') (hph : ph.Sound step.before)
    (hold : step.before.webhooks.deliveries.get id = some d)
    (hop : step.op = .webhooks (.updateDelivery id d.version u) ∨
      step.op = .webhooks (.claimDelivery id d.version) ∧ u = claimDeliveryUpdate step.before.clock) :
    DeliveryMerged id d u ph := by
  cases hstep with
  | quiet hquiet =>
    obtain ⟨call, op, res, before, after⟩ := step
    rcases hop with rfl | ⟨rfl, -⟩ <;> rcases hquiet with hquiet | ⟨-, hquiet⟩ <;> cases hquiet
  | create hcreate =>
    rcases hcreate with ⟨ds, rfl⟩ | ⟨ops, rfl⟩ <;> rcases hop with hop | ⟨hop, -⟩ <;> cases hop
  | fetch | own | begin_ => rcases hop with hop | ⟨hop, -⟩ <;> cases hop
  | @refuse call id' d' u' res before after hidle hstatus hcount =>
    rcases hop with hop | ⟨hop, -⟩
    · injection hop with hop
      injection hop with hid hv hu
      subst hid hu
      obtain rfl := HeldWebhook.current hph hold hv.symm
      exact .refused hidle hstatus hcount
    · cases hop
  | @claim call id' d' res before after hidle =>
    rcases hop with hop | ⟨hop, hu⟩
    · cases hop
    · injection hop with hop
      injection hop with hid hv
      subst hid hu
      obtain rfl := HeldWebhook.current hph hold hv.symm
      exact .claimed hidle rfl rfl
  | @settle call id' key d' u' res before after hkey hstatus hcount =>
    rcases hop with hop | ⟨hop, -⟩
    · injection hop with hop
      injection hop with hid hv hu
      have hkey : key = id' := hkey.trans (HeldWebhook.id_eq hph)
      subst hid hu hkey
      obtain rfl := HeldWebhook.current hph hold hv.symm
      exact .settled hstatus hcount
    · cases hop
  | @reset call id' d' principal res before after =>
    rcases hop with hop | ⟨hop, -⟩
    · injection hop with hop
      injection hop with hid hv hu
      subst hid
      obtain rfl := HeldWebhook.current hph hold hv.symm
      exact .reset hu.symm
    · cases hop

end AppPort
