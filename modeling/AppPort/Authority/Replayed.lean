import AppPort.Authority.Gateway
import AppPort.Lib.Replay

/-!
# Executions, replayed

An `execute` that resolves ran its effect, between calls of the authority's own.
-/

namespace AppPort

open Effects Effects.Platform

variable {τ : Type} [Timestamp τ] {Call Ret Env α : Type} {body : Call → Svc τ Ret}
variable {env : Env → World τ → Option (World τ)}

/-- The effect ran, between calls of the authority's own. -/
def RanBetween (body : Call → Svc τ Ret) (env : Env → World τ → Option (World τ)) (t : Svc τ α)
    (own : List (appPlatform body env).Step) (a : α) : Prop :=
  ∃ later mid earlier, own = later ++ mid ++ earlier ∧
    Task.Ran (P := appPlatform body env) t mid (.ok a) ∧
    (∀ step ∈ later, step.op ∈ authorityCalls) ∧ ∀ step ∈ earlier, step.op ∈ authorityCalls

/-- Calls of the authority before it. -/
theorem RanBetween.after {t : Svc τ α} {later earlier : List (appPlatform body env).Step} {a : α}
    (h : RanBetween body env t later a) (hearlier : ∀ step ∈ earlier, step.op ∈ authorityCalls) :
    RanBetween body env t (later ++ earlier) a := by
  obtain ⟨l, mid, e, rfl, hmid, hl, he⟩ := h
  refine ⟨l, mid, e ++ earlier, by simp, hmid, hl, fun step hmem => ?_⟩
  rcases List.mem_append.mp hmem with h | h
  · exact he step h
  · exact hearlier step h

/-- **The rule of `perform`.** The effect, and then the completion of its row. -/
theorem ran_perform {context : ServiceExecutionContext τ} {options : ExecuteOptions} {id : String}
    {effect : ServiceExecutionContext τ → EffectTools τ → Svc τ α} {a : α}
    {own : List (appPlatform body env).Step}
    (h : Task.Ran (P := appPlatform body env) (ServiceGateway.perform context options id effect) own
      (.ok a)) :
    RanBetween body env (effect context ⟨id, context, options.provider⟩) own a := by
  unfold ServiceGateway.perform at h
  rcases Task.Ran.tryCatch (P := appPlatform body env) h with h | ⟨e, later, earlier, -, -, h⟩
  · obtain ⟨b, later, earlier, rfl, heffect, hrest⟩ := Task.Ran.bind (P := appPlatform body env) h
    have huses : ∀ step ∈ later, step.op ∈ authorityCalls :=
      Task.Ran.uses (P := appPlatform body env) hrest
        (ServiceGateway.uses_completion id _ (f := fun t => t.bind fun _ => pure b)
          fun u => (ServiceGateway.uses_completeEvidence _ _).bind fun _ => trivial)
    obtain ⟨_, _, _, -, -, hrest⟩ := Task.Ran.bind (P := appPlatform body env) hrest
    obtain ⟨_, _, _, -, -, hrest⟩ := Task.Ran.bind (P := appPlatform body env) hrest
    obtain ⟨_, _, _, -, -, hrest⟩ := Task.Ran.bind (P := appPlatform body env) hrest
    obtain ⟨-, hvalue⟩ := hrest
    cases hvalue
    exact ⟨later, earlier, [], by simp, heffect, huses, fun _ hm => absurd hm List.not_mem_nil⟩
  · -- what was thrown is thrown again
    obtain ⟨_, _, _, -, -, h⟩ := Task.Ran.bind (P := appPlatform body env) h
    obtain ⟨_, _, _, -, -, h⟩ := Task.Ran.bind (P := appPlatform body env) h
    obtain ⟨_, _, _, -, -, h⟩ := Task.Ran.bind (P := appPlatform body env) h
    cases h.2

/-- **The rule of `run`.** -/
theorem ran_run {context : ServiceExecutionContext τ} {options : ExecuteOptions} {startedAt : τ}
    {effect : ServiceExecutionContext τ → EffectTools τ → Svc τ α} {a : α}
    {own : List (appPlatform body env).Step}
    (h : Task.Ran (P := appPlatform body env) (ServiceGateway.run context options effect startedAt)
      own (.ok a)) :
    ∃ context tools, RanBetween body env (effect context tools) own a := by
  unfold ServiceGateway.run at h
  obtain ⟨at_, _, _, rfl, h₁, h⟩ := Task.Ran.bind (P := appPlatform body env) h
  obtain ⟨issued, _, _, rfl, h₂, h⟩ := Task.Ran.bind (P := appPlatform body env) h
  obtain ⟨context', -, h⟩ := Task.Ran.ofExcept_bind (P := appPlatform body env) h
  obtain ⟨id, _, _, rfl, h₃, h⟩ := Task.Ran.bind (P := appPlatform body env) h
  obtain ⟨_, _, _, rfl, h₄, h⟩ := Task.Ran.bind (P := appPlatform body env) h
  have hperform := ((ran_perform h).after
    (h₄.uses (AuthorityOp.uses (.recordEvidence _)))).after (h₃.uses uses_randomUUID)
  exact ⟨_, _, (hperform.after (h₂.uses (AuthorityOp.uses (.isIssued _)))).after (h₁.uses uses_now)⟩

/-- **The rule of `execute`.** -/
theorem ran_execute {gateway : ServiceGateway} {name : String} {input : PrincipalInput}
    {resource : ServiceResource} {options : ExecuteOptions}
    {effect : ServiceExecutionContext τ → EffectTools τ → Svc τ α} {a : α}
    {own : List (appPlatform body env).Step}
    (h : Task.Ran (P := appPlatform body env)
      (gateway.execute name input resource options effect) own (.ok a)) :
    ∃ context tools, RanBetween body env (effect context tools) own a := by
  unfold ServiceGateway.execute at h
  obtain ⟨requestId, _, _, rfl, h₁, h⟩ := Task.Ran.bind (P := appPlatform body env) h
  obtain ⟨startedAt, _, _, rfl, h₂, h⟩ := Task.Ran.bind (P := appPlatform body env) h
  obtain ⟨context, _, _, rfl, h₃, h⟩ := Task.Ran.bind (P := appPlatform body env) h
  have hauthorize := h₃.uses (Task.Uses.tryCatch (gateway.uses_authorize ..) fun error =>
    Task.Uses.bind (gateway.uses_recordRefusal ..) fun _ => trivial)
  obtain ⟨context', tools, hran⟩ := ran_run h
  exact ⟨context', tools, ((hran.after hauthorize).after (h₂.uses uses_now)).after
    (h₁.uses (ServiceGateway.uses_requestIdOf _))⟩

end AppPort
