import AppPort.Authority.Issuance

/-!
# Calls alone

A task in a world where no one else acts, and the rule of `execute` for what the
gateway's own calls leave alone: whoever acts in between, an effect that is performed
keeps it where its body does.
-/

namespace AppPort

open Effects

variable {τ : Type} [Timestamp τ] {α : Type}

/-- The calls alone, without others. -/
def alone (τ : Type) [Timestamp τ] : Setting (services τ) (World τ) where
  answers op w res w' := ∃ choice, AppOp.exec op choice w = some (res, w')
  between w w' := w' = w

/-- What the gateway's calls, and others between them, leave alone. -/
structure KeptByGateway {W : Type} (E : Setting (services τ) W) (I : W → Prop) : Prop where
  calls : ∀ op ∈ gatewayCalls, ∀ w res w', I w → E.answers op w res w' → I w'
  between : ∀ w w', I w → E.between w w' → I w'

section gateway

variable {W : Type} {E : Setting (services τ) W} {I : W → Prop} {Q : α → Prop}

omit [Timestamp τ] in
theorem KeptByGateway.ensures (h : KeptByGateway E I) {t : Svc τ α} {w : W}
    (huses : Task.Uses (S := services τ) gatewayCalls t) (hw : I w) :
    t.Ensures E w fun _ w' => I w' :=
  Task.Ensures.of_uses h.calls h.between huses hw

omit [Timestamp τ] in
theorem KeptByGateway.consults (h : KeptByGateway E I) {t : Svc τ α} {w : W}
    (huses : Task.Uses (S := services τ) consultCalls t) (hw : I w) :
    t.Ensures E w fun _ w' => I w' :=
  h.ensures (huses.mono consultCalls_gateway) hw

omit [Timestamp τ] in
/-- What holds of every settling holds beside what is ensured. -/
theorem ensures_and {t : Svc τ α} {w : W} {P P' : Except JsError α → W → Prop}
    (h : t.Ensures E w P) (h' : t.Ensures E w P') : t.Ensures E w fun r w' => P r w' ∧ P' r w' := by
  induction t generalizing w with
  | settled r => exact ⟨h, h'⟩
  | await op k ih => exact fun w₁ res w₂ hb ha => ih res (h w₁ res w₂ hb ha) (h' w₁ res w₂ hb ha)

omit [Timestamp τ] in
/-- An error has no value. -/
theorem kept_error {w : W} (hw : I w) (error : JsError) :
    I w ∧ ∀ a, (Except.error error : Except JsError α) = .ok a → Q a :=
  ⟨hw, fun _ h => nomatch h⟩

/-- `run` keeps what the effect keeps, and resolves to what the effect does. -/
theorem ensures_run_keeping (hI : KeptByGateway E I) {context : ServiceExecutionContext τ}
    {options : ExecuteOptions} {startedAt : τ}
    {effect : ServiceExecutionContext τ → EffectTools τ → Svc τ α}
    (heffect : ∀ tools w, I w →
      (effect context tools).Ensures E w (fun r w' => I w' ∧ ∀ a, r = .ok a → Q a))
    {w : W} (hw : I w) :
    (ServiceGateway.run context options effect startedAt).Ensures E w
      (fun r w' => I w' ∧ ∀ a, r = .ok a → Q a) := by
  unfold ServiceGateway.run
  refine Task.Ensures.bind (hI.consults consults_now hw) ?_ (fun e _ h => kept_error h e)
  intro at_ w₁ hw₁
  refine Task.Ensures.bind (hI.ensures (AuthorityOp.gateway _ rfl) hw₁) ?_
    (fun e _ h => kept_error h e)
  intro issued w₂ hw₂
  refine Task.Ensures.bind (Task.ensures_ofExcept _ w₂) ?_ ?_
  · -- the context asserted is the one handed in
    rintro context' w₃ ⟨hasserted, rfl⟩
    obtain ⟨rfl, -⟩ := assertExecutionContext_ok hasserted.symm
    refine Task.Ensures.bind (hI.consults consults_randomUUID hw₂) ?_ (fun e _ h => kept_error h e)
    intro id w₄ hw₄
    refine Task.Ensures.bind (hI.ensures (AuthorityOp.gateway _ rfl) hw₄) ?_
      (fun e _ h => kept_error h e)
    intro _ w₅ hw₅
    unfold ServiceGateway.perform
    refine Task.Ensures.tryCatch (Q := fun r w' => I w' ∧ ∀ a, r = .ok a → Q a) ?_
      (fun _ _ h => h) ?_
    · refine Task.Ensures.bind (heffect _ w₅ hw₅) ?_ (fun e _ h => kept_error h.1 e)
      intro result w₆ hresult
      refine (hI.ensures (ServiceGateway.gateway_completion (fun _ h => h) id _
        (f := fun t => t.bind fun _ => pure result)
        fun u => (ServiceGateway.gateway_completeEvidence _ _).bind fun _ => trivial)
        hresult.1).yields ?_
      -- what the effect resolved to is what the whole resolves to
      refine Task.Yields.of_bind fun refs => Task.Yields.of_bind fun completedAt => ?_
      exact Task.Yields.of_bind fun _ => hresult.2 result rfl
    · intro error w₆ herror
      refine (hI.ensures (ServiceGateway.gateway_completion (fun _ h => h) id _
        (f := fun t => t.ignore.bind fun _ => throw error)
        fun u => (ServiceGateway.gateway_completeEvidence _ _).ignore.bind fun _ => trivial)
        herror.1).yields ?_
      refine Task.Yields.of_bind fun refs => Task.Yields.of_bind fun completedAt => ?_
      exact Task.Yields.of_bind fun _ => trivial
  · rintro e w₃ ⟨-, rfl⟩
    exact kept_error hw₂ e

/-- **The rule of `execute`** for what the gateway leaves alone. -/
theorem ensures_execute_keeping (hI : KeptByGateway E I) {gateway : ServiceGateway} {name : String}
    {input : PrincipalInput} {resource : ServiceResource} {options : ExecuteOptions}
    {effect : ServiceExecutionContext τ → EffectTools τ → Svc τ α}
    (heffect : ∀ context tools w, I w →
      (effect context tools).Ensures E w (fun r w' => I w' ∧ ∀ a, r = .ok a → Q a))
    {w : W} (hw : I w) :
    (gateway.execute name input resource options effect).Ensures E w
      (fun r w' => I w' ∧ ∀ a, r = .ok a → Q a) := by
  unfold ServiceGateway.execute
  refine Task.Ensures.bind (hI.consults (ServiceGateway.consults_requestIdOf _) hw) ?_
    (fun e _ h => kept_error h e)
  intro requestId w₁ hw₁
  refine Task.Ensures.bind (hI.consults consults_now hw₁) ?_ (fun e _ h => kept_error h e)
  intro startedAt w₂ hw₂
  refine Task.Ensures.bind (hI.ensures ?_ hw₂) ?_ (fun e _ h => kept_error h e)
  · refine Task.Uses.tryCatch
      ((gateway.consults_authorize _ _ _ _).mono consultCalls_gateway) fun error => ?_
    exact Task.Uses.bind (gateway.gateway_recordRefusal _ _ _ _ _ _ _) fun _ => trivial
  · intro context w₃ hw₃
    exact ensures_run_keeping hI (heffect context) hw₃

end gateway

section around

variable {W : Type} {E : Setting (services τ) W} {I : W → Prop} {P : Except JsError α → W → Prop}

/-- What holds before an effect and after it, and is left alone by the gateway. A rejection
says no more than that the effect may not have begun, or may have settled in any way. -/
structure Around (E : Setting (services τ) W) (I : W → Prop) (P : Except JsError α → W → Prop) :
    Prop where
  before : KeptByGateway E I
  after : ∀ r, KeptByGateway E (P r)
  refused : ∀ e w, I w → P (.error e) w
  rejected : ∀ r e w, P r w → P (.error e) w

/-- The completion of a row, after an effect that resolved. -/
theorem ensures_completed (h : Around E I P) {result : α} {t : Svc τ α} {w : W}
    (huses : Task.Uses (S := services τ) gatewayCalls t) (hyields : t.Yields (· = result))
    (hw : P (.ok result) w) : t.Ensures E w P := by
  refine Task.Ensures.mono ?_ (((h.after (.ok result)).ensures huses hw).yields hyields)
  rintro r w' ⟨hkept, hresult⟩
  cases r with
  | ok a =>
    rw [hresult a rfl]
    exact hkept
  | error e => exact h.rejected _ e w' hkept

/-- The completion of a row, after an effect that rejected. -/
theorem ensures_uncompleted (h : Around E I P) {error : JsError} {t : Svc τ α} {w : W}
    (huses : Task.Uses (S := services τ) gatewayCalls t) (hyields : t.Yields fun _ => False)
    (hw : P (.error error) w) : t.Ensures E w P := by
  refine Task.Ensures.mono ?_ (((h.after (.error error)).ensures huses hw).yields hyields)
  rintro r w' ⟨hkept, hresult⟩
  cases r with
  | ok a => exact (hresult a rfl).elim
  | error e => exact h.rejected _ e w' hkept

/-- `run` settles in what the effect settles in. -/
theorem ensures_run_around (h : Around E I P) {context : ServiceExecutionContext τ}
    {options : ExecuteOptions} {startedAt : τ}
    {effect : ServiceExecutionContext τ → EffectTools τ → Svc τ α}
    (heffect : ∀ tools w, I w → (effect context tools).Ensures E w P) {w : W} (hw : I w) :
    (ServiceGateway.run context options effect startedAt).Ensures E w P := by
  unfold ServiceGateway.run
  refine Task.Ensures.bind (h.before.consults consults_now hw) ?_ (fun e w' => h.refused e w')
  intro at_ w₁ hw₁
  refine Task.Ensures.bind (h.before.ensures (AuthorityOp.gateway _ rfl) hw₁) ?_
    (fun e w' => h.refused e w')
  intro issued w₂ hw₂
  refine Task.Ensures.bind (Task.ensures_ofExcept _ w₂) ?_ ?_
  · -- the context asserted is the one handed in
    rintro context' w₃ ⟨hasserted, rfl⟩
    obtain ⟨rfl, -⟩ := assertExecutionContext_ok hasserted.symm
    refine Task.Ensures.bind (h.before.consults consults_randomUUID hw₂) ?_
      (fun e w' => h.refused e w')
    intro id w₄ hw₄
    refine Task.Ensures.bind (h.before.ensures (AuthorityOp.gateway _ rfl) hw₄) ?_
      (fun e w' => h.refused e w')
    intro _ w₅ hw₅
    unfold ServiceGateway.perform
    refine Task.Ensures.tryCatch (Q := P) ?_ (fun _ _ h => h) ?_
    · refine Task.Ensures.bind (heffect _ w₅ hw₅) ?_ (fun e w₆ h => h)
      intro result w₆ hresult
      refine ensures_completed h (ServiceGateway.gateway_completion (fun _ h => h) id _
        (f := fun t => t.bind fun _ => pure result)
        fun u => (ServiceGateway.gateway_completeEvidence _ _).bind fun _ => trivial) ?_ hresult
      refine Task.Yields.of_bind fun refs => Task.Yields.of_bind fun completedAt => ?_
      exact Task.Yields.of_bind fun _ => rfl
    · intro error w₆ herror
      refine ensures_uncompleted h (ServiceGateway.gateway_completion (fun _ h => h) id _
        (f := fun t => t.ignore.bind fun _ => throw error)
        fun u => (ServiceGateway.gateway_completeEvidence _ _).ignore.bind fun _ => trivial) ?_ herror
      refine Task.Yields.of_bind fun refs => Task.Yields.of_bind fun completedAt => ?_
      exact Task.Yields.of_bind fun _ => trivial
  · rintro e w₃ ⟨-, rfl⟩
    exact h.refused e _ hw₂

/-- **The rule of `execute`**, where the effect changes what the gateway leaves alone. -/
theorem ensures_execute_around (h : Around E I P) {gateway : ServiceGateway} {name : String}
    {input : PrincipalInput} {resource : ServiceResource} {options : ExecuteOptions}
    {effect : ServiceExecutionContext τ → EffectTools τ → Svc τ α}
    (heffect : ∀ context tools w, I w → (effect context tools).Ensures E w P) {w : W} (hw : I w) :
    (gateway.execute name input resource options effect).Ensures E w P := by
  unfold ServiceGateway.execute
  refine Task.Ensures.bind (h.before.consults (ServiceGateway.consults_requestIdOf _) hw) ?_
    (fun e w' => h.refused e w')
  intro requestId w₁ hw₁
  refine Task.Ensures.bind (h.before.consults consults_now hw₁) ?_ (fun e w' => h.refused e w')
  intro startedAt w₂ hw₂
  refine Task.Ensures.bind (h.before.ensures ?_ hw₂) ?_ (fun e w' => h.refused e w')
  · refine Task.Uses.tryCatch
      ((gateway.consults_authorize _ _ _ _).mono consultCalls_gateway) fun error => ?_
    exact Task.Uses.bind (gateway.gateway_recordRefusal _ _ _ _ _ _ _) fun _ => trivial
  · intro context w₃ hw₃
    exact ensures_run_around h (heffect context) hw₃

end around

/-- What the calls of the authority group, and others between them, leave alone. -/
structure KeptByAuthority (E : Setting (services τ) (World τ)) (I : World τ → Prop) : Prop where
  calls : ∀ op ∈ authorityCalls, ∀ w res w', I w → E.answers op w res w' → I w'
  between : ∀ w w', I w → E.between w w' → I w'

section keeping

variable {E : Setting (services τ) (World τ)} {I : World τ → Prop} {Q : α → Prop}

omit [Timestamp τ] in
theorem KeptByAuthority.ensures (h : KeptByAuthority E I) {t : Svc τ α} {w : World τ}
    (huses : Task.Uses (S := services τ) authorityCalls t) (hw : I w) :
    t.Ensures E w fun _ w' => I w' :=
  Task.Ensures.of_uses h.calls h.between huses hw

omit [Timestamp τ] in
theorem KeptByAuthority.gateway (h : KeptByAuthority E I) : KeptByGateway E I where
  calls op hop := h.calls op (gatewayCalls_subset hop)
  between := h.between

/-- **The rule of `execute`** for what the gateway leaves alone: the effect runs under a
context issued on this request. -/
theorem ensures_execute_issued (hI : KeptByAuthority E I) (hE : ByExecution E)
    {gateway : ServiceGateway} {name : String}
    {input : PrincipalInput} {resource : ServiceResource} {options : ExecuteOptions}
    {effect : ServiceExecutionContext τ → EffectTools τ → Svc τ α}
    (heffect : ∀ context tools w, IssuedOn gateway name input resource context → I w →
      (effect context tools).Ensures E w (fun r w' => I w' ∧ ∀ a, r = .ok a → Q a))
    {w : World τ} (hw : I w) :
    (gateway.execute name input resource options effect).Ensures E w
      (fun r w' => I w' ∧ ∀ a, r = .ok a → Q a) := by
  unfold ServiceGateway.execute
  refine Task.Ensures.bind (hI.ensures (ServiceGateway.uses_requestIdOf _) hw) ?_
    (fun e _ h => kept_error h e)
  intro requestId w₁ hw₁
  refine Task.Ensures.bind (hI.ensures uses_now hw₁) ?_ (fun e _ h => kept_error h e)
  intro startedAt w₂ hw₂
  refine Task.Ensures.bind (Q := fun r w' => I w' ∧
    ∀ context, r = .ok context → IssuedOn gateway name input resource context) ?_ ?_
    (fun e _ h => kept_error h.1 e)
  · refine Task.Ensures.tryCatch (ensures_and
      (hI.ensures (gateway.uses_authorize _ _ _ _) hw₂)
      (ensures_authorize hE gateway name input resource requestId w₂)) (fun _ _ h => h) ?_
    intro error w₃ hw₃
    have hrefused : Task.Uses (S := services τ) authorityCalls
        ((gateway.recordRefusal name input resource options requestId startedAt error).bind
          fun _ => (throw error : Svc τ (ServiceExecutionContext τ))) :=
      Task.Uses.bind (gateway.uses_recordRefusal _ _ _ _ _ _ _) fun _ => trivial
    exact (hI.ensures hrefused hw₃.1).yields (Task.Yields.of_bind fun _ => trivial)
  · intro context w₃ hcontext
    exact ensures_run_keeping hI.gateway (fun tools w hw => heffect context tools w (hcontext.2 context rfl) hw)
      hcontext.1

end keeping

/-! ## The stores -/

omit [Timestamp τ] in
theorem SameStores.trans {w₁ w₂ w₃ : World τ} (h : SameStores w₁ w₂) (h' : SameStores w₂ w₃) :
    SameStores w₁ w₃ := by
  constructor
  · exact h'.clock.trans h.clock
  · exact h'.jobs.trans h.jobs
  · exact h'.schedules.trans h.schedules
  · exact h'.webhooks.trans h.webhooks
  · exact h'.notifications.trans h.notifications
  · exact h'.apiKeys.trans h.apiKeys
  · exact h'.configuration.trans h.configuration
  · exact h'.secretMetadata.trans h.secretMetadata
  · exact h'.jobAudit.trans h.jobAudit
  · exact h'.webhookAudit.trans h.webhookAudit
  · exact h'.notificationAudit.trans h.notificationAudit
  · exact h'.apiKeyAudit.trans h.apiKeyAudit

/-- The gateway leaves the stores alone. -/
theorem sameStores_kept (w : World τ) : KeptByAuthority (alone τ) (SameStores w) where
  calls := by
    rintro op ⟨o, rfl⟩ w₁ res w₂ hsame ⟨choice, hexec⟩
    exact hsame.trans (AuthorityOp.exec_stores hexec)
  between := by
    rintro w₁ w₂ hsame rfl
    exact hsame

/-- Alone, the calls are answered as the world executes them. -/
theorem alone_byExecution : ByExecution (alone τ) := by
  rintro op w res w' ⟨choice, hexec⟩
  exact ⟨choice, w, w', hexec⟩

/-- A call that reads answers with what it reads, or rejects. -/
theorem ensures_alone_stored (op : AppOp τ) {w : World τ} {a : op.Out τ}
    (hexec : ∀ choice, op.exec choice w = stored choice w (.ok a, w)) :
    Task.Ensures (S := services τ) (alone τ) (Task.perform op) w
      (fun r w' => w' = w ∧ ∀ b, r = .ok b → b = a) := by
  refine Task.ensures_perform ?_
  rintro w₁ res w₂ rfl ⟨choice, hanswer⟩
  rw [hexec] at hanswer
  rcases stored_cases hanswer with ⟨rfl, rfl⟩ | ⟨message, rfl, rfl | rfl⟩
  · exact ⟨rfl, fun b hb => (Except.ok.inj hb).symm⟩
  · exact ⟨rfl, fun b hb => nomatch hb⟩
  · exact ⟨rfl, fun b hb => nomatch hb⟩

/-- The clock is read. -/
theorem ensures_alone_now (w : World τ) :
    Task.Ensures (S := services τ) (alone τ) now w
      (fun r w' => w' = w ∧ ∀ t, r = .ok t → t = w.clock) := by
  refine Task.ensures_perform ?_
  rintro w₁ res w₂ rfl ⟨choice, hanswer⟩
  obtain ⟨rfl, rfl⟩ := computed_ok hanswer
  exact ⟨rfl, fun t ht => (Except.ok.inj ht).symm⟩

/-! ## One way to go -/

/-- The value of a task that has resolved. -/
def resolvedTo (outcome : Svc τ α × World τ) : Option α :=
  match outcome.1 with
  | .settled (.ok a) => some a
  | _ => none

/-- The way these choices take is one the task may go. -/
theorem settles_of_after {a : α} : {choices : List Choice} → {t : Svc τ α} → {w : World τ} →
    (Task.after (S := services τ) AppOp.exec choices t w).bind resolvedTo = some a →
    ∃ w', Task.Settles (alone τ) t w (.ok a) w'
  | [], .settled (.ok b), w, h => by
    obtain rfl : b = a := Option.some.inj h
    exact ⟨w, rfl, rfl⟩
  | [], .settled (.error _), _, h => by
    cases h
  | [], .await _ _, _, h => by
    cases h
  | _ :: _, .settled _, _, h => by
    cases h
  | choice :: choices, .await op k, w, h => by
    simp only [Task.after] at h
    cases hexec : op.exec choice w with
    | none =>
      rw [hexec] at h
      cases h
    | some answered =>
      rw [hexec] at h
      obtain ⟨w', hsettles⟩ := settles_of_after h
      exact ⟨w', w, answered.1, answered.2, rfl, ⟨choice, hexec⟩, hsettles⟩

end AppPort
