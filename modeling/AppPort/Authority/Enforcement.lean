import AppPort.Authority.Gateway
import AppPort.Lib.Trace

/-!
# Enforcement — what precedes an effect

Two things are proved of the gateway. `conforms_execute` is the rule every service
uses: around an effect the gateway is quiet, the effect runs at most once, and how
`execute` settles follows from how the effect settled. `Justified` is the guarantee
itself: read off the trace of the process, every check of the fixed order was
answered in its favour before the effect was invoked.

The second is stated of all runs of a pool in which hosts authenticate and call
`execute` freely, with every answer of the authorizer, of the credential check and
of the evidence store, and with everything but the principal brand changing
arbitrarily in between.
-/

namespace AppPort

open Effects Effects.Platform

variable {τ : Type} {α : Type}

/-! ## The frame rule -/

/-- A store of the evidence group that rejects does not do so with an error of the
services' own. -/
theorem AuthorityOp.exec_error [Timestamp τ] {choice : Choice} {w w' : World τ}
    (op : AuthorityOp τ) {e : JsError} (h : op.exec choice w = some (.error e, w'))
    (hop : (∃ id, op = .getEvidence id) ∨ ∃ id row, op = .putEvidence id row) :
    e.code? = none := by
  rcases hop with ⟨id, rfl⟩ | ⟨id, row, rfl⟩ <;>
  · rcases stored_cases h with ⟨hr, -⟩ | ⟨message, hr, -⟩
    · cases hr
    · cases hr
      rfl

/-- A recorded row is stored. -/
theorem exec_recordEvidence [Timestamp τ] {row : EffectEvidence τ} {choice : Choice}
    {w w' : World τ} (h : (AuthorityOp.recordEvidence row).exec choice w = some (.ok (), w')) :
    w'.evidence.get row.id = some row := by
  simp only [AuthorityOp.exec] at h
  split at h
  · rcases stored_cases h with ⟨hr, rfl⟩ | ⟨message, hr, -⟩
    · cases hev : w.evidence.insertAbsent row.id row with
      | none =>
        rw [hev] at hr
        cases hr
      | some evidence =>
        obtain ⟨-, rfl⟩ := Table.insertAbsent_eq_some hev
        exact Table.get_put_same ..
    · cases hr
  · obtain ⟨r, -, hr⟩ := Option.map_eq_some_iff.mp h
    cases hr

/-- A row is recorded only without credential material. -/
theorem exec_recordEvidence_clean [Timestamp τ] {row : EffectEvidence τ} {choice : Choice}
    {w w' : World τ} (h : (AuthorityOp.recordEvidence row).exec choice w = some (.ok (), w')) :
    row.hasNoSecrets = true := by
  simp only [AuthorityOp.exec] at h
  split at h
  · next hclean => exact hclean
  · obtain ⟨r, -, hr⟩ := Option.map_eq_some_iff.mp h
    cases hr

section frame

variable [Timestamp τ] {Call Ret Env : Type} {body : Call → Svc τ Ret}
  {env : Env → World τ → Option (World τ)} {D : Discipline (appPlatform body env)}
  {call : Call} {ph : D.Phase}

/-- Completing a row is quiet, and fails only as a store does. -/
theorem conforms_completeEvidence (hquiet : gatewayCalls ⊆ D.Idle call ph) (id : String)
    (updates : EvidenceCompletion τ) :
    D.Conforms call (ServiceGateway.completeEvidence id updates) ph
      (fun r ph' => ph' = ph ∧ ∀ e, r = .error e → e.code? = none) := by
  unfold ServiceGateway.completeEvidence
  refine Discipline.Conforms.bind (Q := fun r ph' => ph' = ph ∧ r = updates.assertHasNoSecrets)
    ⟨rfl, rfl⟩ ?_ ?_
  · rintro - ph' ⟨rfl, -⟩
    refine Discipline.Conforms.bind (Discipline.Conforms.perform_idle (hquiet (AuthorityOp.mem_gatewayCalls _ rfl))) ?_ ?_
    · rintro current ph' ⟨rfl, -⟩
      split
      · exact ⟨rfl, fun e he => by cases he; rfl⟩
      · refine Discipline.Conforms.mono ?_ (Discipline.Conforms.perform_idle (hquiet (AuthorityOp.mem_gatewayCalls _ rfl)))
        rintro r ph'' ⟨rfl, choice, before, after, hexec⟩
        refine ⟨rfl, fun e he => ?_⟩
        subst he
        exact AuthorityOp.exec_error (.putEvidence _ _) hexec (.inr ⟨_, _, rfl⟩)
    · rintro e ph' ⟨rfl, choice, before, after, hexec⟩
      refine ⟨rfl, fun e' he => ?_⟩
      cases he
      exact AuthorityOp.exec_error (.getEvidence _) hexec (.inl ⟨_, rfl⟩)
  · rintro e ph' ⟨rfl, he⟩
    refine ⟨rfl, fun e' heq => ?_⟩
    cases heq
    exact EvidenceCompletion.assertHasNoSecrets_error he.symm

/-- The clock is quiet and does not reject. -/
theorem conforms_now (hquiet : gatewayCalls ⊆ D.Idle call ph) :
    D.Conforms call (now (τ := τ)) ph (fun r ph' => ph' = ph ∧ ∃ t, r = .ok t) := by
  refine Discipline.Conforms.mono ?_
    (Discipline.Conforms.perform_idle (hquiet (AuthorityOp.mem_gatewayCalls .now rfl)))
  rintro r ph' ⟨rfl, choice, before, after, hexec⟩
  exact ⟨rfl, _, (computed_ok hexec).1⟩

/-- Completing the row of an effect that settled with `outcome`. -/
theorem conforms_completion (hquiet : gatewayCalls ⊆ D.Idle call ph) (id : String)
    (updates : List String → τ → EvidenceCompletion τ) {f : Svc τ Unit → Svc τ α}
    {R : Except JsError α → D.Phase → Prop}
    (hf : ∀ u, D.Conforms call (f (ServiceGateway.completeEvidence id u)) ph R) :
    D.Conforms call (do
      let refs : List String ← (AuthorityOp.resolvedRefs id).perform
      let completedAt ← now
      f (ServiceGateway.completeEvidence id (updates refs completedAt))) ph R := by
  refine Discipline.Conforms.bind
    (Discipline.Conforms.perform_idle (hquiet (AuthorityOp.mem_gatewayCalls _ rfl))) ?_ ?_
  · rintro refs ph₁ ⟨rfl, -⟩
    refine Discipline.Conforms.bind (conforms_now hquiet) ?_ ?_
    · rintro completedAt ph₂ ⟨rfl, -⟩
      exact hf _
    · rintro e ph₂ ⟨-, t, ht⟩
      cases ht
  · rintro e ph₁ ⟨rfl, choice, before, after, hexec⟩
    cases (computed_ok hexec).1

/-- The effect of a run, and the completion of its row around it. An effect that
returned may still be reported as failed, when the completion fails. -/
theorem conforms_perform (hquiet : ∀ ph, gatewayCalls ⊆ D.Idle call ph)
    {context : ServiceExecutionContext τ} {options : ExecuteOptions} {evidenceId : String}
    {effect : ServiceExecutionContext τ → EffectTools τ → Svc τ α}
    {Q R : Except JsError α → D.Phase → Prop}
    (heffect : ∀ tools, D.Conforms call (effect context tools) ph Q)
    (hok : ∀ a ph', Q (.ok a) ph' → R (.ok a) ph')
    (hstore : ∀ a ph' e, Q (.ok a) ph' → e.code? = none → R (.error e) ph')
    (herr : ∀ e ph', Q (.error e) ph' → R (.error e) ph') :
    D.Conforms call (ServiceGateway.perform context options evidenceId effect) ph R := by
  unfold ServiceGateway.perform
  -- inside the `try`, an error is the effect's own or a store's after the effect returned
  refine Discipline.Conforms.tryCatch (Q := fun r ph' => match r with
    | .ok a => R (.ok a) ph'
    | .error e => R (.error e) ph') ?_ (fun _ _ h => h) ?_
  · refine Discipline.Conforms.bind (heffect _) (fun result ph₁ hq => ?_) (fun e ph₁ => herr e ph₁)
    refine conforms_completion (hquiet ph₁) evidenceId _ (f := fun t => t.bind fun _ => pure result)
      fun u => ?_
    refine Discipline.Conforms.bind (conforms_completeEvidence (hquiet ph₁) _ _) ?_ ?_
    · rintro - ph₂ ⟨rfl, -⟩
      exact hok result _ hq
    · rintro e ph₂ ⟨rfl, he⟩
      exact hstore result _ e hq (he e rfl)
  · intro error ph₁ hr
    refine conforms_completion (hquiet ph₁) evidenceId _ (f := fun t => t.ignore.bind fun _ =>
      throw error) fun u => ?_
    refine Discipline.Conforms.bind (Discipline.Conforms.ignore (Q := fun ph' => ph' = ph₁)
      (Discipline.Conforms.mono (fun _ _ h => h.1) (conforms_completeEvidence (hquiet ph₁) _ _)))
      ?_ ?_
    · rintro - ph₂ ⟨-, rfl⟩
      exact hr
    · rintro e ph₂ ⟨he, -⟩
      cases he

/-- **The rule of `run`.** -/
theorem conforms_run (hquiet : ∀ ph, gatewayCalls ⊆ D.Idle call ph)
    {context : ServiceExecutionContext τ} {options : ExecuteOptions} {startedAt : τ}
    {effect : ServiceExecutionContext τ → EffectTools τ → Svc τ α}
    {Q R : Except JsError α → D.Phase → Prop} (hrefused : ∀ e, R (.error e) ph)
    (heffect : ∀ tools, D.Conforms call (effect context tools) ph Q)
    (hok : ∀ a ph', Q (.ok a) ph' → R (.ok a) ph')
    (hstore : ∀ a ph' e, Q (.ok a) ph' → e.code? = none → R (.error e) ph')
    (herr : ∀ e ph', Q (.error e) ph' → R (.error e) ph') :
    D.Conforms call (ServiceGateway.run context options effect startedAt) ph R := by
  have hidle := fun (op : AuthorityOp τ) (hop : op.identifies = false) =>
    Discipline.Conforms.perform_idle (hquiet ph (AuthorityOp.mem_gatewayCalls op hop))
  unfold ServiceGateway.run
  refine Discipline.Conforms.bind (hidle _ rfl) ?_ (fun e _ h => h.1 ▸ hrefused e)
  rintro at_ ph ⟨rfl, -⟩
  refine Discipline.Conforms.bind (hidle _ rfl) ?_ (fun e _ h => h.1 ▸ hrefused e)
  rintro issued ph ⟨rfl, -⟩
  -- the asserted context is the one handed in
  refine Discipline.Conforms.bind (Q := fun r ph' => ph' = ph ∧ ∀ c, r = .ok c → c = context)
    ⟨rfl, fun c hc => (assertExecutionContext_ok hc).1⟩ ?_ (fun e _ h => h.1 ▸ hrefused e)
  rintro context' ph ⟨rfl, hcontext⟩
  obtain rfl := hcontext context' rfl
  refine Discipline.Conforms.bind (hidle _ rfl) ?_ (fun e _ h => h.1 ▸ hrefused e)
  rintro evidenceId ph ⟨rfl, -⟩
  refine Discipline.Conforms.bind (hidle _ rfl) ?_ (fun e _ h => h.1 ▸ hrefused e)
  rintro - ph ⟨rfl, -⟩
  exact conforms_perform hquiet heffect hok hstore herr

/-- **The rule of `execute`.** Around its effect the gateway is quiet: either it
refuses and the effect never runs, or it settles as the effect did, save that an
effect that returned is reported as failed when its row cannot be completed. -/
theorem conforms_execute (hquiet : ∀ ph, gatewayCalls ⊆ D.Idle call ph)
    {gateway : ServiceGateway} {name : String} {input : PrincipalInput} {resource : ServiceResource}
    {options : ExecuteOptions}
    {effect : ServiceExecutionContext τ → EffectTools τ → Svc τ α}
    {Q R : Except JsError α → D.Phase → Prop} (hrefused : ∀ e, R (.error e) ph)
    (heffect : ∀ context tools, D.Conforms call (effect context tools) ph Q)
    (hok : ∀ a ph', Q (.ok a) ph' → R (.ok a) ph')
    (hstore : ∀ a ph' e, Q (.ok a) ph' → e.code? = none → R (.error e) ph')
    (herr : ∀ e ph', Q (.error e) ph' → R (.error e) ph') :
    D.Conforms call (gateway.execute name input resource options effect) ph R := by
  have hidle : ∀ {β : Type} {t : Svc τ β}, Task.Uses (S := services τ) gatewayCalls t →
      D.Conforms call t ph (fun _ ph' => ph' = ph) := fun ht =>
    Discipline.Conforms.of_idle (ht.mono (hquiet ph))
  unfold ServiceGateway.execute
  refine Discipline.Conforms.bind (hidle ((ServiceGateway.consults_requestIdOf _).mono consultCalls_gateway)) ?_
    (fun e _ h => h ▸ hrefused e)
  rintro requestId ph rfl
  refine Discipline.Conforms.bind (hidle (consults_now.mono consultCalls_gateway)) ?_ (fun e _ h => h ▸ hrefused e)
  rintro startedAt ph rfl
  refine Discipline.Conforms.bind (Q := fun _ ph' => ph' = ph) ?_ ?_ (fun e _ h => h ▸ hrefused e)
  · refine hidle (Task.Uses.tryCatch ((gateway.consults_authorize _ _ _ _).mono
      consultCalls_gateway) fun error => ?_)
    exact Task.Uses.bind (gateway.gateway_recordRefusal _ _ _ _ _ _ _) fun _ => trivial
  rintro context ph rfl
  exact conforms_run hquiet hrefused (heffect context) hok hstore herr

end frame

/-! ## What an effect rests on -/

section authorized

variable [Timestamp τ] {Call Ret Env : Type} {body : Call → Svc τ Ret}
  {env : Env → World τ → Option (World τ)}

/-- The live check of a key-backed principal passed: the check bound to it answered,
or nothing is bound to it and it is not an API key's. -/
def CredentialPassed (own : List (appPlatform body env).Step) (p : VerifiedPrincipal)
    (capability : String) (resource : ServiceResource) : Prop :=
  (Answered own (.authority (.hasBinding p)) (.ok true) ∧
    Answered own (.authority (.checkCredential p capability resource)) (.ok ())) ∨
  (Answered own (.authority (.hasBinding p)) (.ok false) ∧ p.verifiedBy ≠ .apiKey)

/-- What the process that runs `execute` was answered before it invoked the effect. -/
structure Authorized (own : List (appPlatform body env).Step) (gateway : ServiceGateway)
    (name : String) (input : PrincipalInput) (resource : ServiceResource) (decisionId : String) :
    Prop where
  intro ::
  /-- The principal is a branded object, of the resource's tenant and of this
  application or none. -/
  principal : ∃ p hasScopes, input = .object p hasScopes ∧
    (∃ step ∈ own, p ∈ step.before.verified) ∧
    p.tenantId = resource.tenantId ∧ resource.tenantId ≠ "" ∧
    (present p.applicationId = true → p.applicationId = some gateway.application) ∧
    CredentialPassed own p name resource ∧
    -- the authorizer settled before the timeout with an allow about exactly this
    ∃ (request : ServiceAuthorizationRequest τ) (decision : JsValue),
      Answered own (.authority (.authorize request)) (.ok (.answered (.ok decision))) ∧
      decision.prop "allowed" = .bool true ∧
      decision.prop "decision_id" = .str decisionId ∧
      decision.prop "capability" = .str name ∧
      decision.prop "tenant_id" = .str resource.tenantId ∧
      decision.prop "application_id" = .str gateway.application ∧
      (decision.prop "subject").prop "id" = .str p.principalId ∧
      (decision.prop "resource").prop "uri" = .str (resourceUri gateway.application resource)

theorem Authorized.mono {own own' : List (appPlatform body env).Step} {gateway : ServiceGateway}
    {name : String} {input : PrincipalInput} {resource : ServiceResource} {decisionId : String}
    (h : Authorized own gateway name input resource decisionId) (hs : own <:+ own') :
    Authorized own' gateway name input resource decisionId := by
  obtain ⟨p, hasScopes, hinput, ⟨step, hstep, hp⟩, htenant, hne, happ, hcred, request, decision,
    hasked, hdecision⟩ := h
  refine ⟨p, hasScopes, hinput, ⟨step, hs.subset hstep, hp⟩, htenant, hne, happ, ?_, request,
    decision, hasked.mono hs, hdecision⟩
  rcases hcred with ⟨hb, hc⟩ | ⟨hb, hk⟩
  · exact .inl ⟨hb.mono hs, hc.mono hs⟩
  · exact .inr ⟨hb.mono hs, hk⟩

/-- A `started` row for a decision, recorded by this process and stored. -/
def StartedRow (own : List (appPlatform body env).Step) (decisionId : String) : Prop :=
  ∃ step ∈ own, ∃ row : EffectEvidence τ, step.op = .authority (.recordEvidence row) ∧
    step.after.evidence.get row.id = some row ∧ row.outcome = .started ∧
    row.decision = .allow ∧ row.decisionId = some decisionId

/-- What an issued context says of what it was issued for. -/
structure IssuedFor (context : ServiceExecutionContext τ) (gateway : ServiceGateway)
    (resource : ServiceResource) : Prop where
  application : context.application = gateway.application
  tenantId : context.tenantId = resource.tenantId
  resource : context.resource = resource

section grows

variable {allowed : List (appPlatform body env).Step → (appPlatform body env).Step → Prop}
  {final : Call → Except JsError Ret → List (appPlatform body env).Step → Prop} {call : Call}
  {own : List (appPlatform body env).Step}

/-- Calls of the authority group are no effects: they are always allowed. -/
def AllowsAuthority (allowed : List (appPlatform body env).Step → (appPlatform body env).Step → Prop) :
    Prop :=
  ∀ own call (op : AuthorityOp τ) res before after,
    allowed own ⟨call, .authority op, res, before, after⟩

/-- What the trace shows once the principal passed `requireVerifiedPrincipal`. -/
theorem grows_requireVerifiedPrincipal (hall : AllowsAuthority allowed)
    (input : PrincipalInput) :
    Traced.Grows allowed final call (requireVerifiedPrincipal (τ := τ) input) own
      (fun r own' => ∀ p, r = .ok p → ∃ hasScopes, input = .object p hasScopes ∧
        ∃ step ∈ own', p ∈ step.before.verified) := by
  unfold requireVerifiedPrincipal
  cases input with
  | object p hasScopes =>
    refine Traced.Grows.bind (Traced.Grows.perform_exec (hall _ _ _)) ?_ ?_
    · rintro verified own' - ⟨choice, before, after, hexec, hmem⟩
      split
      · next hv =>
        refine Traced.Grows.settled fun q hq => ?_
        obtain rfl := Except.ok.inj hq
        refine ⟨hasScopes, rfl, _, hmem, ?_⟩
        have := Except.ok.inj (computed_ok hexec).1
        exact of_decide_eq_true (this.symm.trans hv)
      · exact Traced.Grows.settled fun q hq => by cases hq
    · rintro e own' - - q hq
      cases hq
  | text s => exact Traced.Grows.settled fun q hq => by cases hq
  | missing => exact Traced.Grows.settled fun q hq => by cases hq

theorem grows_enforceCredential (hall : AllowsAuthority allowed)
    (p : VerifiedPrincipal) (capability : String) (resource : ServiceResource) :
    Traced.Grows allowed final call
      (enforceCredential (τ := τ) p capability resource) own
      (fun r own' => r = .ok () → CredentialPassed own' p capability resource) := by
  unfold enforceCredential
  refine Traced.Grows.bind (Traced.Grows.perform (hall _ _ _)) ?_ ?_
  · rintro bound own₁ - hbound
    split
    · next hb =>
      refine Traced.Grows.tryCatch (Traced.Grows.perform (hall _ _ _)) ?_ ?_
      · rintro ⟨⟩ own₂ hs hcheck -
        rw [hb] at hbound
        exact .inl ⟨hbound.mono hs, hcheck⟩
      · rintro e own₂ - -
        split <;> exact Traced.Grows.settled fun hr => by cases hr
    · next hb =>
      split
      · exact Traced.Grows.settled fun hr => by cases hr
      · next hk =>
        rw [Bool.not_eq_true] at hb
        rw [hb] at hbound
        exact Traced.Grows.settled fun _ => .inr ⟨hbound, hk⟩
  · rintro e own₁ - - hr
    cases hr

theorem grows_decide (hall : AllowsAuthority allowed)
    (gateway : ServiceGateway) (request : ServiceAuthorizationRequest τ) :
    Traced.Grows allowed final call (gateway.decide request) own
      (fun r own' => ∀ decision, r = .ok decision →
        Answered own' (.authority (.authorize request)) (.ok (.answered (.ok decision))) ∧
        ServiceGateway.validateDecision request decision = true) := by
  unfold ServiceGateway.decide
  split
  · exact Traced.Grows.settled fun decision hr => by cases hr
  · refine Traced.Grows.bind (Traced.Grows.perform (hall _ _ _)) ?_ ?_
    · rintro race own' - hasked
      split
      · exact Traced.Grows.settled fun decision hr => by cases hr
      · exact Traced.Grows.settled fun decision hr => by cases hr
      · exact Traced.Grows.settled fun decision hr => by cases hr
      · exact Traced.Grows.settled fun decision hr => by cases hr
      · exact Traced.Grows.settled fun decision hr => by cases hr
      · split
        · next hv =>
          refine Traced.Grows.settled fun decision hr => ?_
          obtain rfl := Except.ok.inj hr
          exact ⟨hasked, hv⟩
        · exact Traced.Grows.settled fun decision hr => by cases hr
    · rintro e own' - - decision hr
      cases hr

theorem grows_authorize (hall : AllowsAuthority allowed)
    (gateway : ServiceGateway) (name : String) (input : PrincipalInput) (resource : ServiceResource)
    (requestId : String) :
    Traced.Grows allowed final call
      (gateway.authorize (τ := τ) name input resource requestId) own
      (fun r own' => ∀ context, r = .ok context →
        Authorized own' gateway name input resource context.authorization.decisionId ∧
          IssuedFor context gateway resource) := by
  unfold ServiceGateway.authorize
  split
  · exact Traced.Grows.settled fun context hr => by cases hr
  next capability hcap =>
  obtain rfl := ServiceGateway.capability_name hcap
  split
  · exact Traced.Grows.settled fun context hr => by cases hr
  refine Traced.Grows.bind (grows_requireVerifiedPrincipal hall input) ?_
    (fun e own' _ _ context hr => by cases hr)
  intro p own₁ _ hp
  obtain ⟨hasScopes, rfl, step, hstep, hverified⟩ := hp p rfl
  refine Traced.Grows.bind (Traced.Grows.settled (Q := fun r _ =>
    r = gateway.assertOwnership p resource capability.name) rfl) ?_
    (fun e own' _ _ context hr => by cases hr)
  rintro ⟨⟩ own₂ hs₂ hown
  obtain ⟨htenant, hne, happ⟩ := ServiceGateway.assertOwnership_ok hown.symm
  refine Traced.Grows.bind (grows_enforceCredential hall p capability.name resource) ?_
    (fun e own' _ _ context hr => by cases hr)
  rintro ⟨⟩ own₃ hs₃ hcred
  refine Traced.Grows.bind (Traced.Grows.perform (hall _ _ _)) ?_
    (fun e own' _ _ context hr => by cases hr)
  intro timestamp own₄ hs₄ _
  refine Traced.Grows.bind (grows_decide hall gateway _) ?_
    (fun e own' _ _ context hr => by cases hr)
  intro decision own₅ hs₅ hdec
  obtain ⟨hasked, hvalid⟩ := hdec decision rfl
  obtain ⟨⟨id, hid, -⟩, hdcap, hdtenant, hdapp, hdsubject, hduri⟩ := ServiceGateway.validateDecision_fields hvalid
  split
  · exact Traced.Grows.settled fun context hr => by cases hr
  next hallow =>
  rw [Bool.not_eq_false, ServiceGateway.isAllow_iff] at hallow
  have hauth : Authorized own₅ gateway capability.name (.object p hasScopes) resource id := by
    refine ⟨p, hasScopes, rfl, ⟨step, (hs₂.trans (hs₃.trans (hs₄.trans hs₅))).subset hstep, hverified⟩,
      htenant, hne, happ, ?_, _, decision, hasked, hallow, hid, hdcap, hdtenant, hdapp, hdsubject,
      hduri⟩
    rcases hcred rfl with ⟨hb, hc⟩ | ⟨hb, hk⟩
    · exact .inl ⟨hb.mono (hs₄.trans hs₅), hc.mono (hs₄.trans hs₅)⟩
    · exact .inr ⟨hb.mono (hs₄.trans hs₅), hk⟩
  refine Traced.Grows.bind (Traced.Grows.perform (hall _ _ _)) ?_
    (fun e own' _ _ context hr => by cases hr)
  intro decidedAt own₆ hs₆ _
  refine Traced.Grows.bind (Traced.Grows.perform (hall _ _ _)) ?_
    (fun e own' _ _ context hr => by cases hr)
  intro issuedAt own₇ hs₇ _
  refine Traced.Grows.bind (Traced.Grows.settled (Q := fun _ _ => True) trivial) ?_
    (fun e own' _ _ context hr => by cases hr)
  intro expiresAt own₈ hs₈ _
  refine Traced.Grows.mono (Traced.Grows.perform_exec (hall _ _ _)) ?_
  rintro r own₉ hs₉ ⟨choice, before, after, hexec, -⟩ context rfl
  obtain rfl := Except.ok.inj (computed_ok hexec).1
  refine ⟨?_, rfl, rfl, rfl⟩
  show Authorized own₉ gateway capability.name _ resource
    (((decision.prop "decision_id").text?).getD "")
  rw [hid]
  exact hauth.mono (hs₆.trans (hs₇.trans (hs₈.trans hs₉)))

/-- Everything of `execute` around its effect is calls of the authority group. -/
theorem grows_authority (hall : AllowsAuthority allowed) {α : Type} {t : Svc τ α}
    (ht : Task.Uses (S := services τ) authorityCalls t) :
    Traced.Grows allowed final call t own (fun _ _ => True) := by
  refine Traced.Grows.of_uses (fun op hop own res before after => ?_) ht
  obtain ⟨o, rfl⟩ := hop
  exact hall _ _ _ _ _ _

/-- The evidence row `run` writes before the effect. -/
theorem grows_recordEvidence (hall : AllowsAuthority allowed)
    (context : ServiceExecutionContext τ) (options : ExecuteOptions) (id : String) (startedAt : τ) :
    Traced.Grows allowed final call
      ((AuthorityOp.recordEvidence
        (ServiceGateway.evidenceFor context options id startedAt .started)).perform) own
      (fun r own' => r = .ok () → StartedRow own' context.authorization.decisionId ∧
        (ServiceGateway.evidenceFor context options id startedAt .started).hasNoSecrets = true) := by
  refine Traced.Grows.mono (Traced.Grows.perform_exec (hall _ _ _)) ?_
  rintro r own' - ⟨choice, before, after, hexec, hmem⟩ rfl
  exact ⟨⟨_, hmem, _, rfl, exec_recordEvidence hexec, rfl, rfl, rfl⟩, exec_recordEvidence_clean hexec⟩

/-- What follows an effect leaves what it established on the trace, and resolves only
where the effect did. -/
theorem grows_perform (hall : AllowsAuthority allowed) {context : ServiceExecutionContext τ}
    {options : ExecuteOptions} {id : String}
    {effect : ServiceExecutionContext τ → EffectTools τ → Svc τ α}
    {R : α → List (appPlatform body env).Step → Prop}
    (hmono : ∀ a own own', own <:+ own' → R a own → R a own')
    (heffect : Traced.Grows allowed final call (effect context ⟨id, context, options.provider⟩) own
      (fun r own' => ∀ a, r = .ok a → R a own')) :
    Traced.Grows allowed final call (ServiceGateway.perform context options id effect) own
      (fun r own' => ∀ a, r = .ok a → R a own') := by
  unfold ServiceGateway.perform
  refine Traced.Grows.tryCatch (Q := fun r own' => ∀ a, r = .ok a → R a own') ?_
    (fun _ _ _ h => h) ?_
  · refine Traced.Grows.bind heffect ?_ (fun e own₁ _ _ a ha => by cases ha)
    intro result own₁ _ hreturned
    refine Traced.Grows.bind (grows_authority hall (AuthorityOp.uses _)) ?_
      (fun e own₂ _ _ a ha => by cases ha)
    intro refs own₂ hs₂ _
    refine Traced.Grows.bind (grows_authority hall uses_now) ?_
      (fun e own₃ _ _ a ha => by cases ha)
    intro completedAt own₃ hs₃ _
    refine Traced.Grows.bind (grows_authority hall (ServiceGateway.uses_completeEvidence _ _)) ?_
      (fun e own₄ _ _ a ha => by cases ha)
    intro _ own₄ hs₄ _
    refine Traced.Grows.settled fun a ha => ?_
    obtain rfl := Except.ok.inj ha
    exact hmono _ own₁ own₄ (hs₂.trans (hs₃.trans hs₄)) (hreturned result rfl)
  · intro error own₁ _ _
    refine Traced.Grows.bind (grows_authority hall (AuthorityOp.uses _)) ?_
      (fun e own₂ _ _ a ha => by cases ha)
    intro refs own₂ _ _
    refine Traced.Grows.bind (grows_authority hall uses_now) ?_
      (fun e own₃ _ _ a ha => by cases ha)
    intro completedAt own₃ _ _
    refine Traced.Grows.bind (grows_authority hall (ServiceGateway.uses_completeEvidence _ _).ignore)
      ?_ (fun e own₄ _ _ a ha => by cases ha)
    intro _ own₄ _ _
    exact Traced.Grows.settled fun a ha => by cases ha

/-- **The rule of `run`, with its trace.** The effect is begun only under a context that
passed `assertExecutionContext`, and once its `started` row stands. -/
theorem grows_run (hall : AllowsAuthority allowed) {context : ServiceExecutionContext τ}
    {options : ExecuteOptions} {startedAt : τ}
    {effect : ServiceExecutionContext τ → EffectTools τ → Svc τ α}
    {R : α → List (appPlatform body env).Step → Prop}
    (hmono : ∀ a own own', own <:+ own' → R a own → R a own')
    (heffect : ∀ run at_ own', own <:+ own' →
      assertExecutionContext context true context.capability none at_ = .ok context →
      StartedRow own' context.authorization.decisionId →
      (ServiceGateway.evidenceFor context options run startedAt .started).hasNoSecrets = true →
      Traced.Grows allowed final call (effect context ⟨run, context, options.provider⟩) own'
        (fun r own'' => ∀ a, r = .ok a → R a own'')) :
    Traced.Grows allowed final call (ServiceGateway.run context options effect startedAt) own
      (fun r own' => ∀ a, r = .ok a → R a own') := by
  unfold ServiceGateway.run
  refine Traced.Grows.bind (grows_authority hall uses_now) ?_ (fun e _ _ _ a ha => by cases ha)
  intro at_ own₁ hs₁ _
  refine Traced.Grows.bind (grows_authority hall (AuthorityOp.uses _)) ?_
    (fun e _ _ _ a ha => by cases ha)
  intro issued own₂ hs₂ _
  refine Traced.Grows.bind (Traced.Grows.settled (Q := fun r _ =>
    r = assertExecutionContext context issued context.capability none at_) rfl) ?_
    (fun e _ _ _ a ha => by cases ha)
  intro context' own₃ hs₃ hcontext
  obtain ⟨rfl, rfl, -⟩ := assertExecutionContext_ok hcontext.symm
  refine Traced.Grows.bind (grows_authority hall uses_randomUUID) ?_
    (fun e _ _ _ a ha => by cases ha)
  intro evidenceId own₄ hs₄ _
  refine Traced.Grows.bind (grows_recordEvidence hall context' options evidenceId startedAt) ?_
    (fun e _ _ _ a ha => by cases ha)
  rintro ⟨⟩ own₅ hs₅ hrow
  have hafter := hs₁.trans (hs₂.trans (hs₃.trans (hs₄.trans hs₅)))
  obtain ⟨hstarted, hclean⟩ := hrow rfl
  exact grows_perform hall hmono
    (heffect evidenceId at_ own₅ hafter hcontext.symm hstarted hclean)

/-- **The rule of `execute`, with its trace.** The effect is begun only once every check
was answered in its favour and its `started` row stands. -/
theorem grows_execute (hall : AllowsAuthority allowed) {gateway : ServiceGateway} {name : String}
    {input : PrincipalInput} {resource : ServiceResource} {options : ExecuteOptions}
    {effect : ServiceExecutionContext τ → EffectTools τ → Svc τ α}
    {R : α → List (appPlatform body env).Step → Prop}
    (hmono : ∀ a own own', own <:+ own' → R a own → R a own')
    (heffect : ∀ context run own', own <:+ own' → IssuedFor context gateway resource →
      Authorized own' gateway name input resource context.authorization.decisionId →
      StartedRow own' context.authorization.decisionId →
      Traced.Grows allowed final call (effect context ⟨run, context, options.provider⟩) own'
        (fun r own'' => ∀ a, r = .ok a → R a own'')) :
    Traced.Grows allowed final call (gateway.execute name input resource options effect) own
      (fun r own' => ∀ a, r = .ok a → R a own') := by
  unfold ServiceGateway.execute
  refine Traced.Grows.bind (grows_authority hall (ServiceGateway.uses_requestIdOf _)) ?_
    (fun e _ _ _ a ha => by cases ha)
  intro requestId own₁ hs₁ _
  refine Traced.Grows.bind (grows_authority hall uses_now) ?_ (fun e _ _ _ a ha => by cases ha)
  intro startedAt own₂ hs₂ _
  refine Traced.Grows.bind (Q := fun r own' => ∀ context, r = .ok context →
    Authorized own' gateway name input resource context.authorization.decisionId ∧
      IssuedFor context gateway resource) ?_ ?_ (fun e _ _ _ a ha => by cases ha)
  · refine Traced.Grows.tryCatch (grows_authorize hall gateway name input resource requestId)
      (fun _ _ _ h => h) ?_
    intro error own₃ _ _
    exact Traced.Grows.bind (grows_authority hall (gateway.uses_recordRefusal _ _ _ _ _ _ _))
      (fun _ own₄ _ _ => Traced.Grows.settled fun context hr => by cases hr)
      (fun e own₄ _ _ context hr => by cases hr)
  intro context own₃ hs₃ hauth
  obtain ⟨hauth, hissued⟩ := hauth context rfl
  refine grows_run hall hmono ?_
  intro run at_ own₄ hs₄ _ hrow _
  exact heffect context run own₄ (hs₁.trans (hs₂.trans (hs₃.trans hs₄))) hissued
    (hauth.mono hs₄) hrow

/-- **The rule of `withCredential`.** The material is what custody resolved the reference
to, for the tenant of the context. -/
theorem grows_withCredential (hall : AllowsAuthority allowed)
    (hcustody : ∀ own request res before after,
      allowed own ⟨call, .host (.withSecret request), res, before, after⟩)
    {gateway : ServiceGateway} {tools : EffectTools τ} {ref purpose : String}
    {use : JsValue → Svc τ α} {Q : Except JsError α → List (appPlatform body env).Step → Prop}
    (herr : ∀ e own', own <:+ own' → Q (.error e) own')
    (huse : ∀ request value own', own <:+ own' → request.credentialRef = ref →
      request.tenantId = tools.context.tenantId →
      Answered own' (.host (.withSecret request)) (.ok (.resolved value)) →
      Traced.Grows allowed final call (use value) own' Q) :
    Traced.Grows allowed final call (gateway.withCredential tools ref purpose use) own Q := by
  unfold ServiceGateway.withCredential
  refine Traced.Grows.bind (grows_authority hall (AuthorityOp.uses _)) ?_
    (fun e own₁ hs _ => herr e own₁ hs)
  intro _ own₁ hs₁ _
  refine Traced.Grows.bind (grows_authority hall uses_now) ?_
    (fun e own₂ hs _ => herr e own₂ (hs₁.trans hs))
  intro at_ own₂ hs₂ _
  refine Traced.Grows.bind (grows_authority hall (AuthorityOp.uses _)) ?_
    (fun e own₃ hs _ => herr e own₃ (hs₁.trans (hs₂.trans hs)))
  intro issued own₃ hs₃ _
  have hs := hs₁.trans (hs₂.trans hs₃)
  refine Traced.Grows.bind (Traced.Grows.settled (Q := fun r own₄ => own₄ = own₃ ∧
    r = assertExecutionContext tools.context issued tools.context.capability none at_)
    ⟨rfl, rfl⟩) ?_ (fun e own₄ hs₄ _ => herr e own₄ (hs.trans hs₄))
  rintro context own₄ - ⟨rfl, hcontext⟩
  obtain ⟨rfl, -⟩ := assertExecutionContext_ok hcontext.symm
  split
  · exact Traced.Grows.settled (herr _ _ hs)
  split
  · exact Traced.Grows.settled (herr _ _ hs)
  refine Traced.Grows.bind (Traced.Grows.perform (hcustody _ _)) ?_
    (fun e own₅ hs₅ _ => herr e own₅ (hs.trans hs₅))
  intro answer own₅ hs₅ hanswer
  have hs := hs.trans hs₅
  cases answer with
  | resolved value => exact huse _ value own₅ hs rfl rfl hanswer
  | refused code => exact Traced.Grows.settled (herr _ _ hs)
  | failed e => cases e <;> exact Traced.Grows.settled (herr _ _ hs)

end grows

end authorized

/-! ## The platform of the guarantee

Authentication paths mint principals, hosts call `execute` with anything they like,
and everything but the principal brand may change between any two calls. -/

/-- The entry points of the gateway. -/
inductive GatewayCall where
  /-- Any authentication path: host adapter, API key, job, delivery, integration. -/
  | authenticate (claims : PrincipalClaims) (verifiedBy : PrincipalVerification)
  | identify (gateway : ServiceGateway) (claims : PrincipalClaims)
  | execute (gateway : ServiceGateway) (capabilityName : String) (principalInput : PrincipalInput)
      (resource : ServiceResource) (options : ExecuteOptions)

/-- An effect of the host: opaque code that is invoked and settles. -/
def hostEffect (context : ServiceExecutionContext τ) (_tools : EffectTools τ) : Svc τ JsValue := do
  (HostOp.startEffect context).perform
  (HostOp.awaitEffect context).perform

/-- What each entry point runs. -/
def gatewayBody [Timestamp τ] : GatewayCall → Svc τ JsValue
  | .authenticate claims verifiedBy => do
    let _ ← mintVerifiedPrincipal claims verifiedBy
    pure .undefined
  | .identify gateway claims => do
    let _ ← gateway.identify claims
    pure .undefined
  | .execute gateway capabilityName principalInput resource options =>
    gateway.execute capabilityName principalInput resource options hostEffect

/-- The gateway under an environment that changes everything but the brand. -/
abbrev gatewayPlatform (τ : Type) [Timestamp τ] : Platform :=
  appPlatform (gatewayBody (τ := τ)) fun (f : World τ → World τ) w =>
    some { f w with verified := w.verified }

/-! ## The condition -/

section guarantee

variable [Timestamp τ]

/-- The condition on a step: an effect is invoked only on behalf of an `execute`
whose checks all passed and whose row stands. -/
def EffectAllowed (own : List (gatewayPlatform τ).Step) (step : (gatewayPlatform τ).Step) : Prop :=
  ∀ context, step.op = .host (.startEffect context) →
    ∃ gateway name input resource options,
      step.call = .execute gateway name input resource options ∧
      Authorized own gateway name input resource context.authorization.decisionId ∧
      StartedRow own context.authorization.decisionId

/-- The programs of the gateway only make authority calls, which are no effects. -/
abbrev guarded (τ : Type) [Timestamp τ] : Discipline (gatewayPlatform τ) :=
  traced EffectAllowed (fun _ _ _ => True)

theorem effectAllowed_authority : AllowsAuthority (EffectAllowed (τ := τ)) := by
  intro own call op res before after context h
  cases h

theorem grows_hostEffect {call : GatewayCall} {own : List (gatewayPlatform τ).Step}
    {context : ServiceExecutionContext τ} {tools : EffectTools τ}
    (hstart : ∀ (res : Except JsError Unit) (before after : World τ),
      EffectAllowed own ⟨call, .host (.startEffect context), res, before, after⟩) :
    Traced.Grows EffectAllowed (fun _ _ _ => True) call (hostEffect context tools) own
      (fun _ _ => True) := by
  unfold hostEffect
  refine Traced.Grows.bind (Traced.Grows.perform hstart) (fun _ own' _ _ => ?_)
    (fun _ _ _ _ => trivial)
  refine Traced.Grows.mono (Traced.Grows.perform ?_) (fun _ _ _ _ => trivial)
  intro res before after context' h
  cases h

/-- Every entry point of the gateway invokes effects only as allowed. -/
theorem guarded_obeyed : (guarded τ).Obeyed := by
  intro call
  have hdone : ∀ {t : Svc τ JsValue},
      Traced.Grows EffectAllowed (fun _ _ _ => True) call t [] (fun _ _ => True) →
      (guarded τ).Conforms call t [] (fun _ _ => True) :=
    fun h => Discipline.Conforms.mono (fun _ _ _ => trivial) h
  refine hdone ?_
  cases call with
  | authenticate claims verifiedBy =>
    exact grows_authority effectAllowed_authority ((uses_mintVerifiedPrincipal _ _).bind fun _ => trivial)
  | identify gateway claims =>
    exact grows_authority effectAllowed_authority ((gateway.uses_identify claims).bind fun _ => trivial)
  | execute gateway name input resource options =>
    refine Traced.Grows.mono (grows_execute effectAllowed_authority (R := fun _ _ => True)
      (fun _ _ _ _ _ => trivial) fun context run own _ _ hauth hrow => ?_) (fun _ _ _ _ => trivial)
    refine Traced.Grows.mono (grows_hostEffect fun res before after context' h => ?_)
      (fun _ _ _ _ _ _ => trivial)
    cases h
    exact ⟨gateway, name, input, resource, options, rfl, hauth, hrow⟩

/-! ## Where branded objects come from -/

/-- The object was minted earlier in the run. -/
def MintedIn (past : (gatewayPlatform τ).History) (p : VerifiedPrincipal) : Prop :=
  ∃ pid call claims verifiedBy before after,
    .ran pid ⟨call, .authority (.mint claims verifiedBy), .ok p, before, after⟩ ∈ past

theorem MintedIn.mono {past past' : (gatewayPlatform τ).History} {p : VerifiedPrincipal}
    (h : MintedIn past p) (hs : past ⊆ past') : MintedIn past' p := by
  obtain ⟨pid, call, claims, verifiedBy, before, after, hm⟩ := h
  exact ⟨pid, call, claims, verifiedBy, before, after, hs hm⟩

theorem MintedIn.cons {past : (gatewayPlatform τ).History} {p : VerifiedPrincipal}
    (h : MintedIn past p) (e : (gatewayPlatform τ).Event) : MintedIn (e :: past) p := by
  obtain ⟨pid, call, claims, verifiedBy, before, after, hm⟩ := h
  exact ⟨pid, call, claims, verifiedBy, before, after, List.mem_cons_of_mem _ hm⟩

/-- Calls outside the authority group leave the brand alone. -/
theorem exec_verified {op : AppOp τ} {choice : Choice} {w w' : World τ}
    {res : Except JsError (op.Out τ)} (h : op.exec choice w = some (res, w'))
    (hop : op ∉ authorityCalls) : w'.verified = w.verified := by
  have hstored : ∀ {β : Type} {r : Except JsError β × World τ} {res : Except JsError β},
      r.2.verified = w.verified → stored choice w r = some (res, w') →
      w'.verified = w.verified := by
    intro β r res hr hs
    rcases stored_cases hs with ⟨-, rfl⟩ | ⟨_, -, rfl | rfl⟩
    · exact hr
    · exact hr
    · rfl
  cases op with
  | authority o => exact absurd (mem_authorityCalls o) hop
  | jobs o => exact hstored rfl h
  | schedules o => exact hstored rfl h
  | webhooks o => exact hstored rfl h
  | notifications o => exact hstored rfl h
  | apiKeys o => exact hstored rfl h
  | configuration o => exact hstored rfl h
  | secretMetadata o => exact hstored rfl h
  | audit o => cases o <;> exact hstored rfl h
  | commit ops =>
    refine hstored ?_ h
    split
    · next w₁ hall =>
      exact applyAll_rel (R := fun w w' => w'.verified = w.verified) (fun _ => rfl)
        (fun h₁ h₂ => h₂.trans h₁) (fun op _ w w' => op.apply_verified) hall
    · rfl
  | host o => rw [HostOp.exec_world h]

/-- **Only minting adds to the brand**, and it adds the object it answers with. -/
theorem minted_of_exec (pid : Nat) (call : GatewayCall) {op : AppOp τ} {choice : Choice}
    {w w' : World τ} {res : Except JsError (op.Out τ)} (h : op.exec choice w = some (res, w'))
    {p : VerifiedPrincipal} (hp : p ∈ w'.verified) :
    p ∈ w.verified ∨ MintedIn [.ran pid ⟨call, op, res, w, w'⟩] p := by
  by_cases hop : op ∈ authorityCalls
  · obtain ⟨o, rfl⟩ := hop
    cases o with
    | mint claims verifiedBy =>
      obtain ⟨rfl, rfl⟩ := computed_ok h
      rcases List.mem_cons.mp hp with rfl | hp
      · exact .inr ⟨pid, call, claims, verifiedBy, w, _, List.mem_singleton_self _⟩
      · exact .inl hp
    | now | isVerified | hasBinding | issue | isIssued | consume | pushRef | resolvedRefs
    | bindCredential | keyMemory =>
      obtain ⟨-, rfl⟩ := computed_ok h
      exact .inl hp
    | uuid =>
      rw [(AuthorityOp.exec_uuid h).1] at hp
      exact .inl hp
    | randomBytes =>
      rw [AuthorityOp.exec_randomBytes h] at hp
      exact .inl hp
    | authorize =>
      simp only [AppOp.exec, AuthorityOp.exec] at h
      split at h
      · cases h
        exact .inl hp
      · cases h
    | checkCredential =>
      simp only [AppOp.exec, AuthorityOp.exec] at h
      split at h
      · rcases stored_cases h with ⟨-, rfl⟩ | ⟨_, -, rfl | rfl⟩ <;> exact .inl hp
      · obtain ⟨-, rfl⟩ := computed_ok h
        exact .inl hp
    | recordEvidence row =>
      simp only [AppOp.exec, AuthorityOp.exec] at h
      split at h
      · rcases stored_cases h with ⟨-, rfl⟩ | ⟨_, -, rfl | rfl⟩
        · split at hp <;> exact .inl hp
        · split at hp <;> exact .inl hp
        · exact .inl hp
      · obtain ⟨r, hr, heq⟩ := Option.map_eq_some_iff.mp h
        cases heq
        rw [(computed_ok hr).2] at hp
        exact .inl hp
    | getEvidence | putEvidence | findByDecision | listKeyAudit =>
      rcases stored_cases h with ⟨-, rfl⟩ | ⟨_, -, rfl | rfl⟩ <;> exact .inl hp
  · rw [exec_verified h hop] at hp
    exact .inl hp

/-- Where the brand stands along a run that started with none. -/
structure BrandHistory (c : (gatewayPlatform τ).Config) : Prop where
  /-- Every branded object was minted in the run. -/
  branded : ∀ p ∈ c.world.verified, MintedIn c.past p
  /-- Every object that was branded when a step began was minted before that step. -/
  earlier : Throughout (fun older e => ∀ pid (step : (gatewayPlatform τ).Step),
    e = .ran pid step → ∀ p ∈ step.before.verified, MintedIn older p) c.past

theorem brandHistory {w : World τ} (hw : w.verified = []) {as : List (gatewayPlatform τ).Action}
    {c : (gatewayPlatform τ).Config}
    (hrun : (gatewayPlatform τ).run (Config.init w) as = some c) : BrandHistory c := by
  refine run_induction BrandHistory (c := Config.init w) ⟨fun p hp => ?_, ?_⟩ ?_ as hrun
  · rw [show (Config.init w : (gatewayPlatform τ).Config).world.verified = [] from hw] at hp
    cases hp
  · exact trivial
  intro c a c' hc hact
  cases a with
  | spawn call =>
    obtain rfl := (Option.some.inj hact).symm
    exact ⟨hc.branded, hc.earlier⟩
  | step pid choice =>
    obtain ⟨call, op, k, res, world, -, hexec, rfl⟩ := act_step hact
    refine ⟨fun p hp => ?_, fun pid' step heq p hp => ?_, hc.earlier⟩
    · rcases minted_of_exec pid call hexec hp with hold | hnew
      · exact (hc.branded p hold).cons _
      · obtain ⟨pid', call', claims, by_, before, after, hm⟩ := hnew
        exact ⟨pid', call', claims, by_, before, after,
          List.mem_cons.mpr (.inl (List.mem_singleton.mp hm))⟩
    · cases heq
      exact hc.branded p hp
  | stop pid =>
    obtain ⟨p, -, rfl⟩ := act_stop hact
    exact ⟨fun q hq => (hc.branded q hq).cons _, fun pid' step heq => (nomatch heq), hc.earlier⟩
  | env f =>
    obtain ⟨world, henv, rfl⟩ := act_env hact
    obtain rfl := (Option.some.inj henv).symm
    exact ⟨hc.branded, hc.earlier⟩


/-! ## The guarantee -/

/-- What must have happened before an event that invokes an effect. -/
def EffectGuaranteed (older : (gatewayPlatform τ).History) : (gatewayPlatform τ).Event → Prop
  | .ran pid step => ∀ context, step.op = .host (.startEffect context) →
    ∃ gateway name input resource options,
      step.call = .execute gateway name input resource options ∧
      (∃ p hasScopes, input = .object p hasScopes ∧ MintedIn older p) ∧
      Authorized (ownSteps pid older) gateway name input resource
        context.authorization.decisionId ∧
      StartedRow (ownSteps pid older) context.authorization.decisionId
  | .stopped _ _ => True

/-- **An effect is invoked only after authorization.** In every run of the gateway that
starts with no branded principal, whenever the effect passed to `execute` is
invoked: the principal was minted before by an authentication path, is of the
resource's tenant and of the gateway's application (or of none), and its live
credential check passed; the authorizer settled before the timeout with an allow for
this capability, tenant, application, subject and resource; and the `started` row of
that decision had been stored. -/
theorem effect_only_after_authorization {w : World τ} (hw : w.verified = [])
    {as : List (gatewayPlatform τ).Action} {c : (gatewayPlatform τ).Config}
    (hrun : (gatewayPlatform τ).run (Config.init w) as = some c) :
    Throughout EffectGuaranteed c.past := by
  have hbrand := (brandHistory hw hrun).earlier
  refine throughout_of_split fun newer e older hpast => ?_
  cases e with
  | stopped pid call => trivial
  | ran pid step =>
    intro context hop
    obtain ⟨gateway, name, input, resource, options, hcall, hauth, hrow⟩ :=
      Traced.sound guarded_obeyed hrun hpast context hop
    refine ⟨gateway, name, input, resource, options, hcall, ?_, hauth, hrow⟩
    obtain ⟨p, hasScopes, hinput, ⟨st, hst, hp⟩, -⟩ := hauth.principal
    -- the object was branded when `requireVerifiedPrincipal` looked, so it was minted before
    obtain ⟨newer', older', rfl⟩ := List.append_of_mem (mem_ownSteps.mp hst)
    have hsplit : c.past = (newer ++ .ran pid step :: newer') ++ .ran pid st :: older' := by
      rw [hpast, List.append_assoc, List.cons_append]
    rw [hsplit] at hbrand
    have hminted := Throughout.split _ hbrand pid st rfl p hp
    refine ⟨p, hasScopes, hinput, hminted.mono fun e he => ?_⟩
    exact List.mem_append_right _ (List.mem_cons_of_mem _ he)

/-! ### A run in which an effect is invoked -/

/-- Authenticate, then execute: the authorizer allows, the row is stored and the
effect is invoked. -/
def allowedRun : List (gatewayPlatform Nat).Action :=
  let claims : PrincipalClaims :=
    { principalId := "ada", principalType := "user", tenantId := "acme" }
  let gateway : ServiceGateway := { application := "app", authorizer := true, credentials := false }
  let decision : JsValue := .obj [
    ("decision_id", .str "d1"), ("allowed", .bool true), ("capability", .str "jobs.create"),
    ("tenant_id", .str "acme"), ("application_id", .str "app"),
    ("subject", .obj [("id", .str "ada")]),
    ("resource", .obj [("uri", .str "appport://app/tenants/acme/job/*")])]
  [.spawn (.authenticate claims .host), .step 0 .proceed,
    .spawn (.execute gateway "jobs.create" (.of (mintedPrincipal claims .host 0))
      { type := "job", tenantId := "acme" } { service := "jobs" }),
    .step 1 (.draw "request"), .step 1 .proceed, .step 1 .proceed, .step 1 .proceed,
    .step 1 .proceed, .step 1 (.decision false (.ok decision)), .step 1 .proceed,
    .step 1 .proceed, .step 1 .proceed, .step 1 .proceed, .step 1 .proceed,
    .step 1 (.draw "row"), .step 1 .proceed, .step 1 .proceed]

/-- The event invokes an effect. -/
def invokesEffect : (gatewayPlatform τ).Event → Bool
  | .ran _ ⟨_, .host (.startEffect _), _, _, _⟩ => true
  | _ => false

theorem effect_only_after_authorization_allowedRun :
    ∃ c, (gatewayPlatform Nat).run (Config.init { clock := 0 }) allowedRun = some c ∧
      c.past.any invokesEffect = true ∧ Throughout EffectGuaranteed c.past := by
  obtain ⟨c, hrun, hpast⟩ : ∃ c, (gatewayPlatform Nat).run (Config.init { clock := 0 }) allowedRun =
      some c ∧ c.past.any invokesEffect = true :=
    exists_of_run (by decide +kernel)
  exact ⟨c, hrun, hpast, effect_only_after_authorization rfl hrun⟩

end guarantee

end AppPort
