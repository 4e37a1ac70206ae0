import AppPort.Authority.Evidence
import AppPort.Lib.Ensures

/-!
# Issuance — what an effect is performed under

The gateway between two worlds: what `authorize` says of the context it resolves to, and
which evidence row stands when `run` or `execute` resolves. Others may do anything
between two calls, save that they leave the rows under the ids this call draws alone.
-/

namespace AppPort

open Effects

variable {τ : Type} [Timestamp τ] {α : Type}

/-! ## The setting -/

/-- A drawn id is one of the task's own. -/
def DrawsFrom (mine : Set String) : (op : AppOp τ) → Except JsError (op.Out τ) → Prop
  | .authority .uuid, .ok id => id ∈ mine
  | _, _ => True

/-- The services, among others who leave the evidence under the ids of `mine` alone. -/
def ownRows (τ : Type) [Timestamp τ] (mine : Set String) : Setting (services τ) (World τ) where
  answers op w res w' := (∃ choice, AppOp.exec op choice w = some (res, w')) ∧ DrawsFrom mine op res
  between w w' := ∀ id ∈ mine, w'.evidence.get id = w.evidence.get id

variable {mine : Set String}

/-- The call may change the evidence table. -/
def AppOp.writesEvidence : AppOp τ → Bool
  | .authority op => op.writesEvidence
  | .commit _ => true
  | _ => false

/-- The calls that leave the evidence alone. -/
def quietCalls : Set (AppOp τ) := {op | op.writesEvidence = false}

omit [Timestamp τ] in
theorem decisionCalls_quiet : decisionCalls (τ := τ) ⊆ quietCalls := by
  rintro op ⟨o, rfl, h⟩
  exact h

/-- Of the calls, only those that record or complete evidence and commits change it. -/
theorem exec_evidence {op : AppOp τ} {choice : Choice} {w w' : World τ}
    {res : Except JsError (op.Out τ)} (h : op.exec choice w = some (res, w'))
    (hop : op.writesEvidence = false) : w'.evidence = w.evidence := by
  have hstored : ∀ {β : Type} {r : Except JsError β × World τ} {res : Except JsError β},
      r.2.evidence = w.evidence → stored choice w r = some (res, w') →
      w'.evidence = w.evidence := by
    intro β r res hr hs
    rcases stored_cases hs with ⟨-, rfl⟩ | ⟨_, -, rfl | rfl⟩
    · exact hr
    · exact hr
    · rfl
  cases op with
  | authority o => exact exec_reads h hop
  | jobs o => exact hstored rfl h
  | schedules o => exact hstored rfl h
  | webhooks o => exact hstored rfl h
  | notifications o => exact hstored rfl h
  | apiKeys o => exact hstored rfl h
  | configuration o => exact hstored rfl h
  | secretMetadata o => exact hstored rfl h
  | audit o => cases o <;> exact hstored rfl h
  | commit ops => cases hop
  | host o => rw [o.exec_world h]

/-- A row of the task's own stands while only quiet calls are made. -/
theorem ensures_row {id : String} {row : EffectEvidence τ} {t : Svc τ α} {w : World τ}
    (hid : id ∈ mine) (ht : Task.Uses (S := services τ) quietCalls t)
    (hrow : w.evidence.get id = some row) :
    t.Ensures (ownRows τ mine) w (fun _ w' => w'.evidence.get id = some row) := by
  refine Task.Ensures.of_uses (E := ownRows τ mine) (I := fun w : World τ => w.evidence.get id = some row)
    ?_ ?_ ht hrow
  · rintro op hop w₁ res w₂ hw ⟨⟨choice, hexec⟩, -⟩
    exact (congrArg (fun t => t.get id) (exec_evidence hexec hop)).trans hw
  · intro w₁ w₂ hw hbetween
    exact (hbetween id hid).trans hw

/-! ## Contexts -/

/-- What a context of this application's gateway says of the principal it was issued to. -/
structure IssuedBy (gateway : ServiceGateway) (context : ServiceExecutionContext τ) : Prop where
  application : context.application = gateway.application
  tenantId : context.principal.tenantId = context.tenantId
  decisionId : context.authorization.decisionId ≠ ""

/-- A context `authorize` issued on this request. -/
structure IssuedOn (gateway : ServiceGateway) (name : String) (input : PrincipalInput)
    (resource : ServiceResource) (context : ServiceExecutionContext τ) : Prop
    extends IssuedBy gateway context where
  capability : context.capability = name
  principal : ∃ hasScopes, input = .object context.principal hasScopes
  resource : context.resource = resource

omit [Timestamp τ] in
/-- `requireVerifiedPrincipal` resolves to the object it was given. -/
theorem yields_requireVerifiedPrincipal (input : PrincipalInput) :
    Task.Yields (S := services τ) (fun p => ∃ hasScopes, input = .object p hasScopes)
      (requireVerifiedPrincipal input) := by
  unfold requireVerifiedPrincipal
  split
  · next p hasScopes =>
    refine Task.Yields.of_bind fun verified => ?_
    split
    · exact ⟨hasScopes, rfl⟩
    · trivial
  · trivial

omit [Timestamp τ] in
theorem yields_decide (gateway : ServiceGateway) (request : ServiceAuthorizationRequest τ) :
    Task.Yields (S := services τ)
      (fun decision => ServiceGateway.validateDecision request decision = true)
      (gateway.decide request) := by
  unfold ServiceGateway.decide
  split
  · trivial
  · refine Task.Yields.of_bind fun race => ?_
    split
    · trivial
    · trivial
    · trivial
    · trivial
    · trivial
    · split
      · next hvalid => exact hvalid
      · trivial

/-- Calls are answered as the world executes them, whatever others do before and after. -/
def ByExecution (E : Setting (services τ) (World τ)) : Prop :=
  ∀ {op : AppOp τ} {w : World τ} {res : Except JsError (op.Out τ)} {w' : World τ},
    E.answers op w res w' → ∃ choice w₀ w₁, op.exec choice w₀ = some (res, w₁)

theorem ownRows_byExecution : ByExecution (ownRows τ mine) := by
  rintro op w res w' ⟨⟨choice, hexec⟩, -⟩
  exact ⟨choice, w, w', hexec⟩

/-- **What `authorize` issues.** -/
theorem ensures_authorize {E : Setting (services τ) (World τ)} (hE : ByExecution E)
    (gateway : ServiceGateway) (name : String) (input : PrincipalInput)
    (resource : ServiceResource) (requestId : String) (w : World τ) :
    (gateway.authorize name input resource requestId).Ensures E w
      (fun r _ => ∀ context, r = .ok context → IssuedOn gateway name input resource context) := by
  have hany : ∀ {β : Type} (t : Svc τ β) (w : World τ) {R : β → Prop},
      Task.Yields (S := services τ) R t →
      t.Ensures E w (fun r _ => ∀ a, r = .ok a → R a) := fun t w _ hy =>
    ((Task.ensures_true t w).yields hy).mono fun _ _ h => h.2
  have hnone : ∀ {β : Type} (t : Svc τ β) (w : World τ),
      t.Ensures E w (fun _ _ => True) := Task.ensures_true
  unfold ServiceGateway.authorize
  split
  · intro context h
    cases h
  next capability hcapability =>
  have hname : capability.name = name := ServiceGateway.capability_name hcapability
  split
  · intro context h
    cases h
  refine Task.Ensures.bind (hany _ w (yields_requireVerifiedPrincipal input)) ?_
    (fun e _ _ context h => by cases h)
  intro principal w₁ hinput
  refine Task.Ensures.bind (Task.ensures_ofExcept _ w₁) ?_ (fun e _ _ context h => by cases h)
  rintro _ w₂ ⟨howner, -⟩
  obtain ⟨htenant, -, -⟩ := ServiceGateway.assertOwnership_ok howner.symm
  refine Task.Ensures.bind (hnone _ w₂) ?_ (fun e _ _ context h => by cases h)
  intro _ w₃ _
  refine Task.Ensures.bind (hnone _ w₃) ?_ (fun e _ _ context h => by cases h)
  intro timestamp w₄ _
  refine Task.Ensures.bind (hany _ w₄ (yields_decide gateway _)) ?_
    (fun e _ _ context h => by cases h)
  intro decision w₅ hvalid
  split
  · intro context h
    cases h
  refine Task.Ensures.bind (hnone _ w₅) ?_ (fun e _ _ context h => by cases h)
  intro decidedAt w₆ _
  refine Task.Ensures.bind (hnone _ w₆) ?_ (fun e _ _ context h => by cases h)
  intro issuedAt w₇ _
  refine Task.Ensures.bind (hnone _ w₇) ?_ (fun e _ _ context h => by cases h)
  intro expiresAt w₈ _
  -- the context is the one that was asked to be issued, with an identity of its own
  refine Task.ensures_perform ?_
  intro w₉ res w₁₀ _ hanswer context hres
  subst hres
  obtain ⟨choice, w₀, w₁, hexec⟩ := hE hanswer
  obtain ⟨hcontext, -⟩ := computed_ok hexec
  obtain rfl := Except.ok.inj hcontext
  obtain ⟨⟨id, hid, hne⟩, -⟩ := ServiceGateway.validateDecision_fields (hvalid decision rfl)
  exact {
    application := rfl
    tenantId := htenant
    decisionId := by simpa [hid, JsValue.text?] using hne
    capability := hname
    principal := hinput principal rfl
    resource := rfl }

/-! ## Effects -/

/-- The row of an effect that was performed under the context and succeeded. -/
def SucceededRow (context : ServiceExecutionContext τ) (options : ExecuteOptions) (w : World τ) :
    Prop :=
  ∃ id startedAt updates, w.evidence.get id =
    some ((ServiceGateway.evidenceFor context options id startedAt .started).complete updates) ∧
    updates.outcome = .succeeded

/-- Completing a row of the task's own. -/
theorem ensures_completeEvidence {id : String} {row : EffectEvidence τ} (hid : id ∈ mine)
    (updates : EvidenceCompletion τ) {w : World τ} (hrow : w.evidence.get id = some row) :
    (ServiceGateway.completeEvidence id updates).Ensures (ownRows τ mine) w
      (fun r w' => r = .ok () → w'.evidence.get id = some (row.complete updates)) := by
  unfold ServiceGateway.completeEvidence
  refine Task.Ensures.bind (Task.ensures_ofExcept _ w) ?_ (fun e _ _ h => by cases h)
  rintro _ w₁ ⟨-, rfl⟩
  refine Task.Ensures.bind (Q := fun r w' => w'.evidence.get id = some row ∧
    ∀ current, r = .ok current → current = some row) ?_ ?_ (fun e _ _ h => by cases h)
  · refine Task.ensures_perform ?_
    rintro w₂ res w₃ hbetween ⟨⟨choice, hexec⟩, -⟩
    have hsame : w₂.evidence.get id = some row := (hbetween id hid).trans hrow
    refine ⟨(congrArg (fun t => t.get id) (exec_evidence hexec rfl)).trans hsame, ?_⟩
    rintro current rfl
    rcases stored_cases hexec with ⟨hres, -⟩ | ⟨message, hres, -⟩
    · obtain rfl := Except.ok.inj hres
      exact hsame
    · cases hres
  · rintro current w₂ ⟨hrow₂, hcurrent⟩
    obtain rfl := hcurrent current rfl
    refine Task.ensures_perform ?_
    rintro w₃ res w₄ - ⟨⟨choice, hexec⟩, -⟩ rfl
    rcases stored_cases hexec with ⟨-, rfl⟩ | ⟨message, hres, -⟩
    · exact Table.get_put_same _ _ _
    · cases hres

/-- **The rule of `run`.** The effect finds its `started` row, and where the whole
resolves the row says that it succeeded. -/
theorem ensures_run {context : ServiceExecutionContext τ} {options : ExecuteOptions} {startedAt : τ}
    {effect : ServiceExecutionContext τ → EffectTools τ → Svc τ α} {Q : α → Prop}
    (heffect : ∀ tools id row w, id ∈ mine → w.evidence.get id = some row →
      (effect context tools).Ensures (ownRows τ mine) w
        (fun r w' => w'.evidence.get id = some row ∧ ∀ a, r = .ok a → Q a)) (w : World τ) :
    (ServiceGateway.run context options effect startedAt).Ensures (ownRows τ mine) w
      (fun r w' => ∀ a, r = .ok a → Q a ∧ SucceededRow context options w') := by
  have hnone : ∀ {β : Type} (t : Svc τ β) (w : World τ),
      t.Ensures (ownRows τ mine) w (fun _ _ => True) := Task.ensures_true
  unfold ServiceGateway.run
  refine Task.Ensures.bind (hnone _ w) ?_ (fun e _ _ a h => by cases h)
  intro at_ w₁ _
  refine Task.Ensures.bind (hnone _ w₁) ?_ (fun e _ _ a h => by cases h)
  intro issued w₂ _
  refine Task.Ensures.bind (Task.ensures_ofExcept _ w₂) ?_ (fun e _ _ a h => by cases h)
  rintro context' w₃ ⟨hcontext, -⟩
  obtain ⟨rfl, -⟩ := assertExecutionContext_ok hcontext.symm
  refine Task.Ensures.bind (Q := fun r _ => ∀ id, r = .ok id → id ∈ mine) ?_ ?_
    (fun e _ _ a h => by cases h)
  · refine Task.ensures_perform ?_
    rintro w₄ res w₅ - ⟨-, hdrawn⟩ id rfl
    exact hdrawn
  intro id w₄ hid
  have hid := hid id rfl
  refine Task.Ensures.bind (Q := fun r w' => r = .ok () → w'.evidence.get id =
    some (ServiceGateway.evidenceFor context' options id startedAt .started)) ?_ ?_
    (fun e _ _ a h => by cases h)
  · refine Task.ensures_perform ?_
    rintro w₅ res w₆ - ⟨⟨choice, hexec⟩, -⟩ rfl
    exact exec_recordEvidence hexec
  intro _ w₅ hrow
  unfold ServiceGateway.perform
  refine Task.Ensures.tryCatch (Q := fun r w' => ∀ a, r = .ok a →
    Q a ∧ SucceededRow context' options w') ?_ (fun _ _ h => h) ?_
  · refine Task.Ensures.bind (heffect _ id _ w₅ hid (hrow rfl)) ?_ (fun e _ _ a h => by cases h)
    rintro result w₆ ⟨hrow₆, hresult⟩
    refine Task.Ensures.bind (ensures_row hid
      (Task.Uses.mono decisionCalls_quiet (AuthorityOp.decides rfl)) hrow₆) ?_
      (fun e _ _ a h => by cases h)
    intro refs w₇ hrow₇
    refine Task.Ensures.bind (ensures_row hid (Task.Uses.mono decisionCalls_quiet decides_now) hrow₇)
      ?_ (fun e _ _ a h => by cases h)
    intro completedAt w₈ hrow₈
    refine Task.Ensures.bind (ensures_completeEvidence hid _ hrow₈) ?_ (fun e _ _ a h => by cases h)
    intro _ w₉ hcompleted a ha
    obtain rfl := Except.ok.inj ha
    exact ⟨hresult result rfl, id, startedAt, _, hcompleted rfl, rfl⟩
  · intro error w₆ _
    refine Task.Ensures.bind (hnone _ w₆) ?_ (fun e _ _ a h => by cases h)
    intro refs w₇ _
    refine Task.Ensures.bind (hnone _ w₇) ?_ (fun e _ _ a h => by cases h)
    intro completedAt w₈ _
    refine Task.Ensures.bind (hnone _ w₈) ?_ (fun e _ _ a h => by cases h)
    intro _ w₉ _ a h
    cases h

/-- **The rule of `execute`.** -/
theorem ensures_execute {gateway : ServiceGateway} {name : String} {input : PrincipalInput}
    {resource : ServiceResource} {options : ExecuteOptions}
    {effect : ServiceExecutionContext τ → EffectTools τ → Svc τ α}
    {Q : ServiceExecutionContext τ → α → Prop}
    (heffect : ∀ context tools id row w, IssuedOn gateway name input resource context →
      id ∈ mine → w.evidence.get id = some row →
      (effect context tools).Ensures (ownRows τ mine) w
        (fun r w' => w'.evidence.get id = some row ∧ ∀ a, r = .ok a → Q context a))
    (w : World τ) :
    (gateway.execute name input resource options effect).Ensures (ownRows τ mine) w
      (fun r w' => ∀ a, r = .ok a → ∃ context, IssuedOn gateway name input resource context ∧
        Q context a ∧ SucceededRow context options w') := by
  have hnone : ∀ {β : Type} (t : Svc τ β) (w : World τ),
      t.Ensures (ownRows τ mine) w (fun _ _ => True) := Task.ensures_true
  unfold ServiceGateway.execute
  refine Task.Ensures.bind (hnone _ w) ?_ (fun e _ _ a h => by cases h)
  intro requestId w₁ _
  refine Task.Ensures.bind (hnone _ w₁) ?_ (fun e _ _ a h => by cases h)
  intro startedAt w₂ _
  refine Task.Ensures.bind (Q := fun r _ => ∀ context, r = .ok context →
    IssuedOn gateway name input resource context) ?_ ?_ (fun e _ _ a h => by cases h)
  · refine Task.Ensures.tryCatch (ensures_authorize ownRows_byExecution gateway name input resource
      requestId w₂)
      (fun _ _ h => h) ?_
    intro error w₃ _
    refine Task.Ensures.bind (hnone _ w₃) ?_ (fun e _ _ context h => by cases h)
    intro _ w₄ _ context h
    cases h
  intro context w₃ hissued
  have hissued := hissued context rfl
  refine Task.Ensures.mono ?_ (ensures_run (Q := Q context)
    (fun tools id row w => heffect context tools id row w hissued) w₃)
  intro r w' h a ha
  exact ⟨context, hissued, h a ha⟩

end AppPort
