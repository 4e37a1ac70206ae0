import AppPort.Lib.Replay
import AppPort.Webhooks.Protocol

/-!
# Inbound events are handled at most once

`receiveWebhook` hands an event to the application only after the replay store has taken
its key, and only if the store had not taken it before. So over every interleaving of
calls of any number of hosts, with crashes anywhere, a handler is started at most once for
an event of an integration, and only in a call that had passed every check.
-/

namespace AppPort

open Effects Effects.Platform WebhookService

variable {τ : Type} [Timestamp τ]

/-! ## The replay store -/

/-- Accepted events stay accepted; one more may be. -/
inductive InboundGrows (op : AppOp τ) (res : Except JsError (op.Out τ)) (w w' : World τ) : Prop where
  | same (h : w'.webhooks.inbound = w.webhooks.inbound)
  | accepted (record : InboundWebhookRecord τ) (hop : op = .webhooks (.acceptInbound record))
    (habsent : w.webhooks.inbound.get record.id = none)
    (h : w'.webhooks.inbound = w.webhooks.inbound.put record.id record)

omit [Timestamp τ] in
/-- Committed operations queue deliveries, never inbound events. -/
theorem applyAll_inbound {ops : List (TransactionOperation τ)} {w w' : World τ}
    (h : applyAll w ops = some w') : w'.webhooks.inbound = w.webhooks.inbound := by
  refine applyAll_rel (R := fun w w' => w'.webhooks.inbound = w.webhooks.inbound)
    (fun _ => rfl) (fun h₁ h₂ => h₂.trans h₁) ?_ h
  intro op _ w w' hop
  cases op <;> simp only [TransactionOperation.apply, Option.map_eq_some_iff] at hop
  case jobAudit | webhookAudit | notificationAudit =>
    cases hop
    rfl
  all_goals
    obtain ⟨t, -, rfl⟩ := hop
    rfl

theorem exec_inbound {op : AppOp τ} {choice : Choice} {w w' : World τ}
    {res : Except JsError (op.Out τ)} (h : op.exec choice w = some (res, w')) :
    InboundGrows op res w w' := by
  have hstored : ∀ {β : Type} {r : Except JsError β × World τ} {res' : Except JsError β},
      InboundGrows op res w r.2 → stored choice w r = some (res', w') →
      InboundGrows op res w w' := by
    intro β r res' hr hs
    rcases stored_cases hs with ⟨-, rfl⟩ | ⟨_, -, rfl | rfl⟩
    · exact hr
    · exact hr
    · exact .same rfl
  cases op with
  | webhooks o =>
    simp only [AppOp.exec] at h
    rcases hexec : o.exec w.clock w.webhooks with ⟨r, webhooks'⟩
    rw [hexec] at h
    refine hstored ?_ h
    cases o with
    | acceptInbound record =>
      simp only [WebhookOp.exec] at hexec
      split at hexec
      · next t hinsert =>
        cases hexec
        obtain ⟨habsent, rfl⟩ := Table.insertAbsent_eq_some hinsert
        exact .accepted record rfl habsent rfl
      · cases hexec
        exact .same rfl
    | createDeliveries | createEndpoint | createIntegration =>
      simp only [WebhookOp.exec] at hexec
      split at hexec <;>
      · cases hexec
        exact .same rfl
    | disableEndpoint | claimDelivery | updateDelivery =>
      simp only [WebhookOp.exec] at hexec
      cases hexec
      exact .same rfl
    | _ =>
      cases hexec
      exact .same rfl
  | jobs o => exact hstored (.same rfl) h
  | schedules o => exact hstored (.same rfl) h
  | notifications o => exact hstored (.same rfl) h
  | apiKeys o => exact hstored (.same rfl) h
  | configuration o => exact hstored (.same rfl) h
  | secretMetadata o => exact hstored (.same rfl) h
  | audit o => cases o <;> exact hstored (.same rfl) h
  | commit ops =>
    refine hstored ?_ h
    split
    · next w₁ hall => exact .same (applyAll_inbound hall)
    · exact .same rfl
  | authority o => exact .same (by rw [(o.exec_stores h).webhooks])
  | host o => exact .same (by rw [o.exec_world h])

/-- What an acceptance found and left. -/
theorem exec_acceptInbound {record : InboundWebhookRecord τ} {choice : Choice} {w w' : World τ}
    (h : AppOp.exec (.webhooks (.acceptInbound record)) choice w = some (.ok true, w')) :
    w.webhooks.inbound.get record.id = none ∧
      w'.webhooks.inbound.get record.id = some record := by
  simp only [AppOp.exec, WebhookOp.exec] at h
  cases hinsert : w.webhooks.inbound.insertAbsent record.id record with
  | none =>
    rw [hinsert] at h
    rcases stored_cases h with ⟨hres, -⟩ | ⟨message, hres, -⟩ <;> cases hres
  | some t =>
    rw [hinsert] at h
    obtain ⟨habsent, rfl⟩ := Table.insertAbsent_eq_some hinsert
    rcases stored_cases h with ⟨-, rfl⟩ | ⟨message, hres, -⟩
    · exact ⟨habsent, Table.get_put_same ..⟩
    · cases hres

omit [Timestamp τ] in
/-- What is in the replay store stays there. -/
theorem InboundGrows.keeps {op : AppOp τ} {res : Except JsError (op.Out τ)} {w w' : World τ}
    (h : InboundGrows op res w w') {id : String} (hid : w.webhooks.inbound.get id ≠ none) :
    w'.webhooks.inbound.get id ≠ none := by
  cases h with
  | same h =>
    rw [h]
    exact hid
  | accepted record _ _ h =>
    rw [h, Table.get_put]
    split
    · exact Option.some_ne_none _
    · exact hid

variable {node : NodeRuntime}

/-- The step accepts an event under this key. -/
def AcceptsKey (key : String) (step : (webhookPlatform node τ).Step) : Prop :=
  ∃ call record before after, record.id = key ∧
    step = ⟨call, .webhooks (.acceptInbound record), .ok true, before, after⟩

/-- Nothing was accepted under this key before. -/
def AcceptsFirst (past : (webhookPlatform node τ).History) :
    (webhookPlatform node τ).Event → Prop
  | .ran _ step => ∀ key, AcceptsKey key step → ∀ pid' step', .ran pid' step' ∈ past →
      ¬ AcceptsKey key step'
  | .stopped _ _ => True

/-- The keys of accepted events are stored, and each was accepted once. -/
structure AcceptedOnce (c : (webhookPlatform node τ).Config) : Prop where
  stored : ∀ {pid step key}, .ran pid step ∈ c.past → AcceptsKey key step →
    c.world.webhooks.inbound.get key ≠ none
  once : Throughout AcceptsFirst c.past

theorem acceptedOnce {w : World τ} {as : List (webhookPlatform node τ).Action}
    {c : (webhookPlatform node τ).Config} (hrun : run (Config.init w) as = some c) :
    AcceptedOnce c := by
  have hinit : AcceptedOnce (Config.init w : (webhookPlatform node τ).Config) :=
    ⟨fun h => (List.not_mem_nil h).elim, trivial⟩
  refine run_induction (P := webhookPlatform node τ) AcceptedOnce hinit ?_ as hrun
  intro c a c' hc hact
  cases a with
  | spawn call =>
    obtain rfl := (Option.some.inj hact).symm
    exact ⟨hc.stored, hc.once⟩
  | step pid choice =>
    obtain ⟨call, op, k, res, world, -, hexec, rfl⟩ := act_step hact
    have hgrows := exec_inbound hexec
    constructor
    · intro q st key hmem haccepts
      rcases List.mem_cons.mp hmem with heq | hmem
      · cases heq
        obtain ⟨call', record, before, after, rfl, hstep⟩ := haccepts
        cases hstep
        rw [(exec_acceptInbound hexec).2]
        exact Option.some_ne_none _
      · exact hgrows.keeps (hc.stored hmem haccepts)
    · refine ⟨?_, hc.once⟩
      intro key haccepts q st hmem haccepted
      have hstored := hc.stored hmem haccepted
      obtain ⟨call', record, before, after, rfl, hstep⟩ := haccepts
      cases hstep
      exact hstored (exec_acceptInbound hexec).1
  | stop pid =>
    obtain ⟨p, -, rfl⟩ := act_stop hact
    refine ⟨fun hmem haccepts => ?_, trivial, hc.once⟩
    rcases List.mem_cons.mp hmem with heq | hmem
    · cases heq
    · exact hc.stored hmem haccepts
  | env move =>
    obtain ⟨world, henv, rfl⟩ := act_env hact
    refine ⟨fun hmem haccepts => ?_, hc.once⟩
    rw [(webhookEnv_keeps henv).1]
    exact hc.stored hmem haccepts

/-- Two acceptances under one key are the same event. -/
theorem AcceptedOnce.unique {c : (webhookPlatform node τ).Config} (hc : AcceptedOnce c)
    {pid pid' : Nat} {step step' : (webhookPlatform node τ).Step} {key : String}
    (hmem : .ran pid step ∈ c.past) (hmem' : .ran pid' step' ∈ c.past) (h : AcceptsKey key step)
    (h' : AcceptsKey key step') : pid = pid' := by
  by_contra hne
  have hpid : ∀ {st st' : (webhookPlatform node τ).Step},
      (Event.ran pid' st' : (webhookPlatform node τ).Event) ≠ .ran pid st := by
    intro st st' heq
    cases heq
    exact hne rfl
  obtain ⟨newer, older, hpast⟩ := List.append_of_mem hmem
  have honce := hc.once
  rw [hpast] at honce hmem'
  rcases List.mem_append.mp hmem' with hnewer | holder
  · -- the other one is the newer
    obtain ⟨newer', between, rfl⟩ := List.append_of_mem hnewer
    rw [List.append_assoc, List.cons_append] at honce
    exact Throughout.split _ honce key h' pid step (by simp) h
  · rcases List.mem_cons.mp holder with heq | holder
    · exact hpid heq
    · exact Throughout.split _ honce key h pid' step' holder h'

/-! ## What a handler rests on -/

/-- Custody resolved the integration's own credential, and the message is signed with it. -/
def SignedBy (own : List (webhookPlatform node τ).Step) (integration : WebhookIntegration τ)
    (message : InboundMessage) : Prop :=
  ∃ custody value secret, Answered own (.host (.withSecret custody)) (.ok (.resolved value)) ∧
    custody.credentialRef = integration.signingCredentialRef ∧
    custody.tenantId = integration.tenantId ∧ signingSecretValue value = .ok secret ∧
    verifyWebhookSignature node secret message.signed message.signature = true

/-- What `receiveWebhook` had been answered when the replay store took an event: the
request is whole, its integration stands, its timestamp is fresh, the integration
principal is authorized, and the signature is the integration's. -/
structure InboundChecked (own : List (webhookPlatform node τ).Step) (service : WebhookService)
    (request : InboundWebhookRequest) (integration : WebhookIntegration τ)
    (message : InboundMessage) (sentAt : τ) (principal : VerifiedPrincipal)
    (context : ServiceExecutionContext τ) : Prop where
  found : ∃ id, request.integrationId = some id ∧ integration.disabledAt = none ∧
    Answered own (.webhooks (.getIntegration id)) (.ok (some integration))
  parsed : inboundMessage request = .ok message
  fresh : Timestamp.parse message.timestamp = some sentAt ∧
    ∃ t, Answered own (.authority .now) (.ok t) ∧
      Timestamp.within service.inboundToleranceMs t sentAt = true
  minted : Answered own
    (.authority (.mint (integrationClaims integration) .integration)) (.ok principal)
  authorized : ∃ gateway resource, service.authority = some gateway ∧
    resource.type = "webhook_integration" ∧ resource.id = some integration.id ∧
    resource.tenantId = integration.tenantId ∧ IssuedFor context gateway resource ∧
    Authorized own gateway "webhooks.receive" (.of principal) resource
      context.authorization.decisionId
  signed : SignedBy own integration message

/-- A handler is started right after the replay store took its event, and with what was
checked. -/
def InboundAllowed (own : List (webhookPlatform node τ).Step)
    (step : (webhookPlatform node τ).Step) : Prop :=
  ∀ event principal context, step.op = .host (.startInboundHandler event principal context) →
    ∃ request integration message sentAt acceptedAt before after own₀,
      step.call.entry = .receiveWebhook request ∧
      own = ⟨step.call, .webhooks (.acceptInbound (inboundRecord node integration
        message sentAt acceptedAt)), .ok true, before, after⟩ :: own₀ ∧
      InboundChecked own₀ step.call.service request integration message sentAt principal context ∧
      event.integrationId = integration.id ∧ event.provider = integration.provider ∧
      event.eventId = message.eventId ∧ event.timestamp = sentAt ∧
      node.jsonParse message.rawBody = some event.payload

/-- The traces of webhook processes. -/
abbrev inboundTraces (node : NodeRuntime) (τ : Type) [Timestamp τ] :
    Discipline (webhookPlatform node τ) :=
  traced InboundAllowed (fun _ _ _ => True)

section conformance

variable {call : WebhookCall τ} {own : List (webhookPlatform node τ).Step}

/-- The calls that start no handler. -/
def unhandledCalls : Set (AppOp τ) :=
  {op | ∀ event principal context, op ≠ .host (.startInboundHandler event principal context)}

/-- A call that starts no handler is always allowed. -/
theorem inboundAllowed_of {step : (webhookPlatform node τ).Step}
    (hop : step.op ∈ unhandledCalls (τ := τ)) : InboundAllowed own step :=
  fun event principal context h => absurd h (hop event principal context)

theorem inboundAllowed_authority :
    AllowsAuthority (@InboundAllowed τ _ node) := by
  intro own call op res before after
  exact inboundAllowed_of fun _ _ _ h => by cases h

/-- The task keeps to the discipline. -/
abbrev GrowsInbound {α : Type} (call : WebhookCall τ) (t : Svc τ α)
    (own : List (webhookPlatform node τ).Step)
    (Q : Except JsError α → List (webhookPlatform node τ).Step → Prop) : Prop :=
  Traced.Grows InboundAllowed (fun _ _ _ => True) call t own Q

omit [Timestamp τ] in
/-- The calls of everything but `receiveWebhook` are among them. -/
theorem outbound_unhandled : OutboundCalls (unhandledCalls (τ := τ)) where
  quiet op hin _ _ event principal context h := by
    subst h
    cases hin
  deliveries op hout event principal context h := by
    subst h
    cases hout

/-- A task of such calls. -/
theorem grows_unhandled {α : Type} {t : Svc τ α}
    (ht : Task.Uses (S := services τ) unhandledCalls t) :
    GrowsInbound call t own (fun _ _ => True) :=
  Traced.Grows.of_uses (fun _ hop _ _ _ _ => inboundAllowed_of hop) ht

omit [Timestamp τ] in
theorem gateway_ok {service : WebhookService} {gateway : ServiceGateway}
    (h : service.gateway = .ok gateway) : service.authority = some gateway := by
  unfold WebhookService.gateway at h
  split at h
  · next hauthority =>
    obtain rfl := Except.ok.inj h
    exact hauthority
  · cases h

theorem grows_auditInbound (integration : WebhookIntegration τ) (accepted : Bool)
    (reason : Option String) :
    GrowsInbound call (auditInbound integration accepted reason) own (fun _ _ => True) :=
  grows_unhandled (outbound_unhandled.uses_audit _)

/-- The effect of `receiveWebhook` accepts an event only under a signature of the
integration, and starts its handler as the very next thing. -/
theorem grows_receiveEffect {gateway : ServiceGateway} {request : InboundWebhookRequest}
    {integration : WebhookIntegration τ} {message : InboundMessage} {sentAt : τ}
    {principal : VerifiedPrincipal} {context : ServiceExecutionContext τ} {tools : EffectTools τ}
    (hentry : call.entry = .receiveWebhook request)
    (htenant : tools.context.tenantId = integration.tenantId)
    (hchecked : ∀ own', own <:+ own' → SignedBy own' integration message →
      InboundChecked own' call.service request integration message sentAt principal context) :
    GrowsInbound call
      (call.service.receiveEffect node gateway integration message sentAt principal context tools) own
      (fun _ _ => True) := by
  unfold receiveEffect
  refine Traced.Grows.bind (Q := fun r own' => r = .ok true → SignedBy own' integration message)
    ?_ ?_ (fun _ _ _ _ => trivial)
  · refine grows_withCredential inboundAllowed_authority
      (fun _ _ _ _ _ => inboundAllowed_of fun _ _ _ h => by cases h)
      (fun e own' _ h => by cases h) ?_
    intro custody value own' _ href hcustody hanswered
    refine Traced.Grows.ofExcept_bind ?_ (fun e _ h => by cases h)
    intro secret hsecret
    refine Traced.Grows.settled fun h => ?_
    exact ⟨custody, value, secret, hanswered, href, hcustody.trans htenant, hsecret,
      Except.ok.inj h⟩
  intro valid own₁ hs₁ hvalid
  cases valid with
  | false => exact Traced.Grows.settled trivial
  | true =>
    have hsigned := hvalid rfl
    rw [if_neg (by simp)]
    refine Traced.Grows.bind (grows_authority inboundAllowed_authority uses_now) ?_
      (fun _ _ _ _ => trivial)
    intro acceptedAt own₂ hs₂ _
    refine Traced.Grows.bind (Traced.Grows.perform_next fun _ _ _ =>
      inboundAllowed_of fun _ _ _ h => by cases h) ?_ (fun _ _ _ _ => trivial)
    rintro accepted own₃ hs₃ ⟨choice, before, after, -, rfl⟩
    cases accepted with
    | false => exact Traced.Grows.settled trivial
    | true =>
      rw [if_pos rfl]
      unfold handleInbound
      split
      · exact Traced.Grows.settled trivial
      next payload hpayload =>
      split
      · -- the handler is started as the next step of the process
        refine Traced.Grows.bind (Traced.Grows.perform ?_) ?_ (fun _ _ _ _ => trivial)
        · intro res before' after' event principal' context' hop
          cases hop
          obtain ⟨custody, value, secret, hanswered, hrest⟩ := hsigned
          exact ⟨request, integration, message, sentAt, acceptedAt, before, after, own₂, hentry, rfl,
            hchecked own₂ (hs₁.trans hs₂) ⟨custody, value, secret, hanswered.mono hs₂, hrest⟩,
            rfl, rfl, rfl, rfl, hpayload⟩
        · intro _ own₄ _ _
          have hawaited : ∀ event : InboundWebhookEvent τ,
              (.host (.awaitInboundHandler event) : AppOp τ) ∈ unhandledCalls :=
            fun _ _ _ _ h => by cases h
          exact grows_unhandled ((Task.uses_perform (hawaited _)).bind fun _ => trivial)
      · exact Traced.Grows.settled trivial

/-- `receiveWebhook` keeps to the discipline. -/
theorem grows_receiveWebhook {request : InboundWebhookRequest}
    (hentry : call.entry = .receiveWebhook request) :
    GrowsInbound call (call.service.receiveWebhook node request) own (fun _ _ => True) := by
  unfold receiveWebhook
  refine Traced.Grows.ofExcept_bind ?_ (fun _ _ => trivial)
  intro _ _
  split
  · exact Traced.Grows.settled trivial
  refine Traced.Grows.bind (Q := fun r (own' : List (webhookPlatform node τ).Step) =>
    ∀ integration, r = .ok (some integration) → ∃ id, request.integrationId = some id ∧
      Answered own' (.webhooks (.getIntegration id)) (.ok (some integration))) ?_ ?_
    (fun _ _ _ _ => trivial)
  · unfold findIntegration
    split
    · next id hid =>
      refine Traced.Grows.mono (Traced.Grows.perform fun _ _ _ =>
        inboundAllowed_of fun _ _ _ h => by cases h) ?_
      intro r own' _ hanswered integration hr
      subst hr
      exact ⟨id, hid, hanswered⟩
    · exact Traced.Grows.settled fun integration hr => by cases hr
  intro answer own₁ hs₁ hanswer
  split
  · exact Traced.Grows.settled trivial
  next integration hfilter =>
  obtain ⟨rfl, hdisabled⟩ := Option.filter_eq_some_iff.mp hfilter
  obtain ⟨id, hid, hfound⟩ := hanswer integration rfl
  refine Traced.Grows.ofExcept_bind ?_ (fun _ _ => trivial)
  intro message hmessage
  unfold receiveMessage
  dsimp only
  have hstale : ∀ own : List (webhookPlatform node τ).Step, GrowsInbound call (do
      auditInbound integration false (some "stale_timestamp")
      throw (serviceError .denied "Inbound webhook timestamp is outside the accepted window"
        { reason := some "stale_timestamp" })) own
      (fun (_ : Except JsError InboundWebhookResult) _ => True) := fun own =>
    Traced.Grows.bind (grows_auditInbound integration _ _)
      (fun _ _ _ _ => Traced.Grows.settled trivial) (fun _ _ _ _ => trivial)
  split
  · exact hstale own₁
  next sentAt hsentAt =>
  refine Traced.Grows.bind (Traced.Grows.perform fun res before after =>
    inboundAllowed_authority own₁ call .now res before after) ?_ (fun _ _ _ _ => trivial)
  intro t own₂ hs₂ hnow
  split
  · exact hstale own₂
  next hwithin =>
  refine Traced.Grows.bind (Q := fun r (own' : List (webhookPlatform node τ).Step) =>
    ∀ principal, r = .ok principal → Answered own' (.authority (.mint (integrationClaims integration) .integration)) (.ok principal))
    ?_ ?_ (fun _ _ _ _ => trivial)
  · unfold mintVerifiedPrincipal
    split
    · exact Traced.Grows.settled fun principal hr => by cases hr
    · refine Traced.Grows.mono (Traced.Grows.perform (inboundAllowed_authority _ _ _)) ?_
      intro r own' _ hanswered principal hr
      subst hr
      exact hanswered
  intro principal own₃ hs₃ hminted
  refine Traced.Grows.tryCatch (Q := fun _ _ => True) ?_ (fun _ _ _ _ => trivial) ?_
  · refine Traced.Grows.ofExcept_bind ?_ (fun _ _ => trivial)
    intro gateway hgateway
    refine Traced.Grows.bind (Q := fun _ _ => True) ?_ ?_ (fun _ _ _ _ => trivial)
    · refine Traced.Grows.mono (grows_execute inboundAllowed_authority (R := fun _ _ => True)
        (fun _ _ _ _ _ => trivial) ?_) (fun _ _ _ _ => trivial)
      intro context run own₄ hs₄ hissued hauthorized _
      refine Traced.Grows.mono (grows_receiveEffect hentry hissued.tenantId ?_)
        (fun _ _ _ _ _ _ => trivial)
      intro own₅ hs₅ hsigned
      exact {
        found := ⟨id, hid, Option.isNone_iff_eq_none.mp hdisabled,
          hfound.mono (hs₂.trans (hs₃.trans (hs₄.trans hs₅)))⟩
        parsed := hmessage
        fresh := ⟨hsentAt, t, hnow.mono (hs₃.trans (hs₄.trans hs₅)),
          Bool.eq_true_of_not_eq_false hwithin⟩
        minted := (hminted principal rfl).mono (hs₄.trans hs₅)
        authorized := ⟨gateway, _, gateway_ok hgateway, rfl, rfl, rfl, hissued, hauthorized.mono hs₅⟩
        signed := hsigned }
    · intro result own₄ _ _
      exact Traced.Grows.bind (grows_auditInbound integration _ _)
        (fun _ _ _ _ => Traced.Grows.settled trivial) (fun _ _ _ _ => trivial)
  · intro error own₄ _ _
    exact grows_unhandled ((outbound_unhandled.uses_audit _).ignore.bind fun _ => trivial)

/-- Every entry point keeps to the discipline. -/
theorem inboundTraces_obeyed : (inboundTraces node τ).Obeyed := by
  intro call
  refine Discipline.Conforms.mono (Q := fun _ (own' : List (webhookPlatform node τ).Step) =>
    [] <:+ own' ∧ True) (fun _ _ _ => trivial) ?_
  show GrowsInbound call (webhookBody node call) [] (fun _ _ => True)
  by_cases hentry : ∃ request, call.entry = .receiveWebhook request
  · obtain ⟨request, hentry⟩ := hentry
    have hbody : webhookBody node call = forEffects (call.service.receiveWebhook node request) := by
      simp only [webhookBody, hentry]
    rw [hbody]
    exact Traced.Grows.bind (grows_receiveWebhook hentry)
      (fun _ _ _ _ => Traced.Grows.settled trivial) (fun _ _ _ _ => trivial)
  · exact grows_unhandled (uses_outbound outbound_unhandled node call fun request h => hentry ⟨request, h⟩)

end conformance

/-- **Inbound events are handled at most once.** Over every interleaving of any number of
hosts, with crashes anywhere: a handler is started only by a `receiveWebhook` whose replay
store took the event just before, after every check of this very message was answered in
its favour; and no handler was started before for an event of its replay key. -/
theorem inbound_events_are_handled_once {w : World τ} {as : List (webhookPlatform node τ).Action}
    {c : (webhookPlatform node τ).Config} (hrun : run (Config.init w) as = some c)
    {newer older : (webhookPlatform node τ).History} {pid : Nat}
    {step : (webhookPlatform node τ).Step} (hpast : c.past = newer ++ .ran pid step :: older)
    {event : InboundWebhookEvent τ} {principal : VerifiedPrincipal}
    {context : ServiceExecutionContext τ}
    (hop : step.op = .host (.startInboundHandler event principal context)) :
    (∃ request integration message sentAt acceptedAt before after own,
      step.call.entry = .receiveWebhook request ∧
      ownSteps pid older = ⟨step.call, .webhooks (.acceptInbound
        (inboundRecord node integration message sentAt acceptedAt)), .ok true, before, after⟩ :: own ∧
      InboundChecked own step.call.service request integration message sentAt principal context ∧
      event.integrationId = integration.id ∧ event.provider = integration.provider ∧
      event.eventId = message.eventId ∧ event.timestamp = sentAt ∧
      node.jsonParse message.rawBody = some event.payload) ∧
    ∀ pid' step' event' principal' context', .ran pid' step' ∈ older →
      step'.op = .host (.startInboundHandler event' principal' context') →
      replayKey node event'.integrationId event'.eventId ≠
        replayKey node event.integrationId event.eventId := by
  have hallowed := Traced.sound inboundTraces_obeyed hrun hpast event principal context hop
  refine ⟨hallowed, ?_⟩
  obtain ⟨_, integration, message, sentAt, acceptedAt, before, after, own, -, hown, -, hintegration, -,
    hevent, -⟩ := hallowed
  intro pid' step' event' principal' context' hmem hop' hkey
  obtain ⟨newer', older', rfl⟩ := List.append_of_mem hmem
  have hpast' : c.past = (newer ++ .ran pid step :: newer') ++ .ran pid' step' :: older' := by
    rw [hpast, List.append_assoc, List.cons_append]
  obtain ⟨_, integration', message', sentAt', acceptedAt', before', after', own', -, hown', -,
    hintegration', -, hevent', -⟩ :=
      Traced.sound inboundTraces_obeyed hrun hpast' event' principal' context' hop'
  rw [hintegration, hevent, hintegration', hevent'] at hkey
  have honce := acceptedOnce hrun
  have haccept := ran_of_ownSteps hown
  have haccept' := ran_of_ownSteps hown'
  have hkeyed : AcceptsKey (replayKey node integration.id message.eventId) ⟨step.call, .webhooks
      (.acceptInbound (inboundRecord node integration message sentAt acceptedAt)), .ok true,
      before, after⟩ := ⟨_, _, _, _, rfl, rfl⟩
  have hkeyed' : AcceptsKey (replayKey node integration.id message.eventId) ⟨step'.call, .webhooks
      (.acceptInbound (inboundRecord node integration' message' sentAt' acceptedAt')), .ok true,
      before', after'⟩ := ⟨_, _, _, _, hkey, rfl⟩
  obtain rfl : pid = pid' := by
    refine honce.unique ?_ ?_ hkeyed hkeyed'
    · rw [hpast]
      exact List.mem_append_right _ (List.mem_cons_of_mem _ haccept)
    · rw [hpast]
      exact List.mem_append_right _ (List.mem_cons_of_mem _ (List.mem_append_right _
        (List.mem_cons_of_mem _ haccept')))
  -- one process accepted both, one after the other
  have hsuffix : step' :: ownSteps pid older' <:+ ownSteps pid (newer' ++ .ran pid step' :: older') := by
    rw [ownSteps_append, ownSteps_same]
    exact List.suffix_append _ _
  rw [hown, List.suffix_cons_iff] at hsuffix
  rcases hsuffix with heq | hsuffix
  · obtain ⟨rfl, -⟩ := List.cons.inj heq
    cases hop'
  have hlatest := List.suffix_refl (ownSteps pid (newer' ++ .ran pid step' :: older'))
  nth_rewrite 1 [hown] at hlatest
  obtain ⟨newer₁, older₁, hsplit, hown₁⟩ := split_ownSteps hlatest
  have hfirst := honce.once
  rw [hpast, hsplit, ← List.cons_append, ← List.append_assoc] at hfirst
  refine Throughout.split _ hfirst _ hkeyed pid _ (mem_ownSteps.mp ?_) hkeyed'
  rw [hown₁]
  exact hsuffix.subset (List.mem_cons_of_mem _ (mem_ownSteps.mpr haccept'))

/-! ### An event sent twice -/

section sample

/-- A runtime that signs with the text itself. -/
def plainNode : NodeRuntime where
  sha256Hex text := text
  hmacSha256Hex _ payload := payload
  jsonParse text := some (.str text)
  jsonStringify _ := ""
  urlOrigin _ := none

/-- A service with a handler for one provider. -/
def inboundService : WebhookService where
  authority := some { application := "app", authorizer := true, credentials := true }
  inboundHandlers := ["stripe"]

def stripeIntegration : WebhookIntegration Nat where
  id := "i1"
  tenantId := "acme"
  applicationId := "app"
  provider := "stripe"
  principalId := "stripe"
  signingCredentialRef := "credential-ref:stripe"
  createdAt := 0
  createdBy := "ada"

def integratedWorld : World Nat where
  clock := 0
  nextRef := 1
  webhooks := { integrations := Table.empty.put "i1" stripeIntegration }

def paidRequest : InboundWebhookRequest where
  integrationId := some "i1"
  headers := [("x-appport-event-id", some (.text "e1")), ("x-appport-timestamp", some (.text "0")),
    ("x-appport-signature", some (.text "0.paid"))]
  rawBody := some "paid"

def allowsIntegration : Choice :=
  .decision false (.ok (.obj [
    ("decision_id", .str "d1"), ("allowed", .bool true), ("capability", .str "webhooks.receive"),
    ("tenant_id", .str "acme"), ("application_id", .str "app"),
    ("subject", .obj [("id", .str "stripe")]),
    ("resource", .obj [("uri", .str "appport://app/tenants/acme/webhook_integration/i1")])]))

/-- The next answers a process gets. -/
def inboundAnswers (pid : Nat) (choices : List Choice) :
    List (webhookPlatform plainNode Nat).Action := choices.map (.step pid)

/-- A request passes every check, up to the replay store. -/
def inboundPassing (pid : Nat) (request row : String) : List (webhookPlatform plainNode Nat).Action :=
  .spawn ⟨inboundService, .receiveWebhook paidRequest⟩ ::
    inboundAnswers pid [.proceed, .proceed, .proceed, .draw request, .proceed, .proceed, .proceed,
      .proceed, allowsIntegration, .proceed, .proceed, .proceed, .proceed, .proceed, .draw row,
      .proceed, .proceed, .proceed, .proceed, .secret (.resolved (.str "key")), .proceed]

/-- Two requests bring the same event and pass every check; both try the replay store before
a handler is started. -/
def sentTwice : List (webhookPlatform plainNode Nat).Action :=
  inboundPassing 0 "request0" "row0" ++ inboundPassing 1 "request1" "row1" ++
    [.step 0 .proceed, .step 1 .proceed, .step 0 .proceed]

/-- The latest event is the start of a handler for this event. -/
def startsLatest (eventId : String) (c : (webhookPlatform plainNode Nat).Config) : Bool :=
  match c.past with
  | .ran _ ⟨_, .host (.startInboundHandler event _ _), _, _, _⟩ :: _ => event.eventId == eventId
  | _ => false

theorem inbound_events_are_handled_once_sentTwice :
    ∃ c pid step older event principal context,
      run (Config.init integratedWorld) sentTwice = some c ∧
      c.past = .ran pid step :: older ∧
      step.op = .host (.startInboundHandler event principal context) ∧ event.eventId = "e1" ∧
      ∀ pid' step' event' principal' context', .ran pid' step' ∈ older →
        step'.op = .host (.startInboundHandler event' principal' context') →
        replayKey plainNode event'.integrationId event'.eventId ≠
          replayKey plainNode event.integrationId event.eventId := by
  obtain ⟨c, hrun, hstarts⟩ : ∃ c, run (Config.init integratedWorld) sentTwice = some c ∧
      startsLatest "e1" c = true := exists_of_run (by decide +kernel)
  unfold startsLatest at hstarts
  split at hstarts
  · next pid call event principal context res before after older hpast =>
    have hlatest : c.past = [] ++ _ := hpast
    have honce := (inbound_events_are_handled_once hrun hlatest rfl).2
    exact ⟨c, pid, _, older, event, principal, context, hrun, hpast, rfl, by simpa using hstarts, honce⟩
  · cases hstarts

end sample

end AppPort
