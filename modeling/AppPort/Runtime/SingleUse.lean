import AppPort.Authority.Enforcement
import AppPort.Runtime.Accounting

/-!
# Single use — what an execution context is good for

A context authorizes one effect. A transaction uses its context up: of all calls that
queue an effect under one context, at most one gets past `consumeExecutionContext`. `run`
does not look at what was used up, it asks only whether the context is live, so a context
handed to `run` stays good for as many further uses as fit into its lifetime.

What is proved: in every run, however the uses interleave, in which a context that is
good for a `run` is good for nothing else, at most one use of it performs or queues an
effect and every other is refused. `ranTwice` is a run of two `run`s of one context.
-/

namespace AppPort

open Effects Effects.Platform

variable {τ : Type} [Timestamp τ]

/-- A use of an execution context. -/
inductive ContextUse (τ : Type) where
  /-- `run`, with an effect of the host. -/
  | run (context : ServiceExecutionContext τ) (options : ExecuteOptions)
  /-- A call that queues an effect, on whatever transaction. -/
  | queue (call : TransactionCall τ)

/-- How a use resolves. -/
inductive UseAnswer (τ : Type) where
  | ran (value : JsValue)
  | queued (went : Queued τ)

/-- The context a use hands in. -/
def ContextUse.context : ContextUse τ → ServiceExecutionContext τ
  | .run context _ => context
  | .queue call => call.context

/-- What a use runs. -/
def useBody (gateway : Option ServiceGateway) : ContextUse τ → Svc τ (UseAnswer τ)
  | .run context options => do
    let startedAt ← now
    let value ← ServiceGateway.run context options hostEffect startedAt
    pure (.ran value)
  | .queue call => do
    let went ← call.perform gateway
    pure (.queued went)

/-- A change of the world that forgets no use of a context. -/
abbrev KeepsUsed (τ : Type) :=
  { f : World τ → World τ // ∀ w, w.consumed ⊆ (f w).consumed }

/-- Uses of contexts by any number of callers; everything else changes freely. -/
abbrev usePlatform (τ : Type) [Timestamp τ] (gateway : Option ServiceGateway) : Platform :=
  appPlatform (useBody (τ := τ) gateway) fun (f : KeepsUsed τ) w => some (f.1 w)

variable {gateway : Option ServiceGateway}

/-! ## What a use can do -/

/-- The context is live at some time. -/
def Live (context : ServiceExecutionContext τ) : Prop :=
  ∃ at_, assertExecutionContext context true context.capability none at_ = .ok context

/-- The `started` row of the effect can be recorded. -/
def Recordable (context : ServiceExecutionContext τ) (options : ExecuteOptions) : Prop :=
  ∃ id startedAt, (ServiceGateway.evidenceFor context options id startedAt .started).hasNoSecrets = true

/-- If the context is issued, and for all the use asks for, it can have its effect: a
`run` while the context is live and its evidence can be recorded, a call on a transaction
where the context is for its capability, its tenant, its resource and its input. -/
def ContextUse.CanPerform : ContextUse τ → Prop
  | .run context options => Live context ∧ Recordable context options
  | .queue call => call.Acceptable ∧ call.Matched

/-- The use is a `run`. -/
def ContextUse.isRun : ContextUse τ → Prop
  | .run _ _ => True
  | .queue _ => False

/-- Two uses do not compete: they are of two contexts, or neither is a `run`, or one of
them cannot perform anything. -/
def ContextUse.Apart (a b : ContextUse τ) : Prop :=
  a.context = b.context → a.isRun ∨ b.isRun → ¬ (a.CanPerform ∧ b.CanPerform)

theorem ContextUse.Apart.symm {a b : ContextUse τ} (h : a.Apart b) : b.Apart a := by
  intro hcontext hrun hboth
  exact h hcontext.symm hrun.symm hboth.symm

/-- The process began an effect under the context, or queued one. -/
def Performed (c : (usePlatform τ gateway).Config) (context : ServiceExecutionContext τ)
    (pid : Nat) : Prop :=
  (∃ step ∈ ownSteps pid c.past, step.op = .host (.startEffect context)) ∨
  ∃ call went, c.proc pid = some ⟨.queue call, .settled (.ok (.queued went))⟩ ∧
    call.context = context ∧ went.result = .ok ()

/-- How a refused use settles. -/
def IsRefusal : Except JsError (UseAnswer τ) → Prop
  | .error _ => True
  | .ok (.ran _) => False
  | .ok (.queued went) => ∃ e, went.result = .error e

/-- Each context was good for one effect. -/
structure UsedOnce (c : (usePlatform τ gateway).Config) : Prop where
  /-- At most one use performs an effect under the context. -/
  once : ∀ context p q, Performed c context p → Performed c context q → p = q
  /-- Every other is refused. -/
  refused : ∀ pid call r, c.proc pid = some ⟨call, .settled r⟩ →
    ¬ Performed c call.context pid → IsRefusal r

/-! ## What a process does -/

/-- An effect is begun by a `run` that can perform it. -/
def UseAllowed (_own : List (usePlatform τ gateway).Step) (step : (usePlatform τ gateway).Step) :
    Prop :=
  ∀ context, step.op = .host (.startEffect context) →
    step.call.context = context ∧ step.call.isRun ∧ step.call.CanPerform

/-- A `run` resolves only after it began its effect, and a call on a transaction queues
an effect only where it was the first to use its context up. -/
def UseSettled (call : ContextUse τ) (r : Except JsError (UseAnswer τ))
    (own : List (usePlatform τ gateway).Step) : Prop :=
  match call, r with
  | .run context _, .ok (.ran _) => ∃ step ∈ own, step.op = .host (.startEffect context)
  | .run _ _, .ok (.queued _) => False
  | .queue call, .ok (.queued went) => went.result = .ok () →
      Answered own (.authority (.consume call.context)) (.ok false) ∧
        call.Acceptable ∧ call.Matched
  | .queue _, .ok (.ran _) => False
  | _, .error _ => True

/-- What the uses of contexts keep to. -/
abbrev useProtocol (τ : Type) [Timestamp τ] (gateway : Option ServiceGateway) :
    Discipline (usePlatform τ gateway) :=
  traced UseAllowed UseSettled

section grows

variable {call : ContextUse τ} {own : List (usePlatform τ gateway).Step}

theorem useAllowed_authority : AllowsAuthority
    (UseAllowed : List (usePlatform τ gateway).Step → (usePlatform τ gateway).Step → Prop) := by
  intro own call op res before after context h
  cases h

/-- A `run` begins its effect once its context is asserted and its row recorded. -/
theorem grows_use_run (context : ServiceExecutionContext τ) (options : ExecuteOptions)
    (startedAt : τ) :
    Traced.Grows UseAllowed UseSettled (.run context options)
      (ServiceGateway.run context options hostEffect startedAt) own
      (fun r own' => ∀ a, r = .ok a →
        ∃ step ∈ own', step.op = .host (.startEffect context)) := by
  refine grows_run useAllowed_authority
    (R := fun _ (own' : List (usePlatform τ gateway).Step) =>
      ∃ step ∈ own', step.op = .host (.startEffect context)) ?_ ?_
  · rintro _ own₁ own₂ hs ⟨step, hstep, hop⟩
    exact ⟨step, hs.subset hstep, hop⟩
  intro run at_ own₁ _ hlive _ hclean
  have hperform : (ContextUse.run context options).CanPerform :=
    ⟨⟨at_, hlive⟩, run, startedAt, hclean⟩
  have hstart : ∀ (res : Except JsError Unit) (before after : World τ),
      UseAllowed own₁ ⟨.run context options, .host (.startEffect context), res, before, after⟩ := by
    intro res before after context' h
    cases h
    exact ⟨rfl, trivial, hperform⟩
  unfold hostEffect
  refine Traced.Grows.bind (Traced.Grows.perform_exec hstart) ?_ (fun _ _ _ _ a ha => by cases ha)
  rintro _ own₂ _ ⟨choice, before, after, -, hmem⟩
  refine Traced.Grows.mono (Traced.Grows.perform ?_) ?_
  · intro res before after context' h
    cases h
  · intro r own₃ hs _ a _
    exact ⟨_, hs.subset hmem, rfl⟩

/-- `consumeExecutionContext` lets the first use pass. -/
theorem grows_authorizedFor (asked : Option ServiceGateway) (context : ServiceExecutionContext τ)
    (capability tenantId resourceType : String) :
    Traced.Grows UseAllowed UseSettled call
      (authorizedFor asked context capability tenantId resourceType) own
      (fun r own' => ∀ a, r = .ok a → Answered own' (.authority (.consume context)) (.ok false)) := by
  unfold authorizedFor
  split
  · exact Traced.Grows.settled fun a ha => by cases ha
  refine Traced.Grows.bind (Q := fun r (own' : List (usePlatform τ gateway).Step) => ∀ a, r = .ok a →
    Answered own' (.authority (.consume context)) (.ok false)) ?_ ?_
    (fun e _ _ _ a ha => by cases ha)
  · unfold consumeExecutionContext
    refine Traced.Grows.bind (grows_authority useAllowed_authority uses_now) ?_
      (fun e _ _ _ a ha => by cases ha)
    intro t own₁ _ _
    refine Traced.Grows.bind (grows_authority useAllowed_authority (AuthorityOp.uses _)) ?_
      (fun e _ _ _ a ha => by cases ha)
    intro issued own₂ _ _
    refine Traced.Grows.bind (Traced.Grows.settled (Q := fun r _ =>
      r = assertExecutionContext context issued capability (some tenantId) t) rfl) ?_
      (fun e _ _ _ a ha => by cases ha)
    intro context' own₃ _ hcontext
    obtain ⟨rfl, -⟩ := assertExecutionContext_ok hcontext.symm
    refine Traced.Grows.bind (Traced.Grows.perform (useAllowed_authority _ _ _)) ?_
      (fun e _ _ _ a ha => by cases ha)
    intro used own₄ _ hanswered
    cases used with
    | true => exact Traced.Grows.settled fun a ha => by cases ha
    | false => exact Traced.Grows.settled fun _ _ => hanswered
  · intro context' own₁ _ hanswered
    have hconsumed := hanswered context' rfl
    split
    · exact Traced.Grows.settled fun a ha => by cases ha
    refine Traced.Grows.bind (grows_authority useAllowed_authority uses_randomUUID) ?_
      (fun e _ _ _ a ha => by cases ha)
    intro id own₂ hs₂ _
    refine Traced.Grows.bind (grows_authority useAllowed_authority uses_now) ?_
      (fun e _ _ _ a ha => by cases ha)
    intro t own₃ hs₃ _
    exact Traced.Grows.settled fun _ _ => hconsumed.mono (hs₂.trans hs₃)

/-- A call whose context is refused queues nothing, and one whose context is accepted
keeps what was answered. -/
theorem grows_use_queue (queue : TransactionCall τ) :
    Traced.Grows UseAllowed UseSettled call (queue.perform gateway) own
      (fun r own' => ∀ went, r = .ok went → went.result = .ok () →
        Answered own' (.authority (.consume queue.context)) (.ok false)) := by
  have hother : ∀ op ∈ {op : AppOp τ | ∀ context, op ≠ .host (.startEffect context)},
      ∀ own res before after,
        UseAllowed own (⟨call, op, res, before, after⟩ : (usePlatform τ gateway).Step) := by
    intro op hop own res before after context' h
    exact absurd h (hop context')
  have hauthority : authorityCalls ⊆ {op : AppOp τ | ∀ context, op ≠ .host (.startEffect context)} := by
    rintro op ⟨o, rfl⟩ context h
    cases h
  obtain ⟨capability, tenantId, resourceType, f, heq, hrefused, haccepted⟩ :=
    perform_eq hauthority (fun _ _ h => by cases h) gateway queue
  rw [heq]
  refine Traced.Grows.bind (grows_authorizedFor gateway queue.context _ _ _).attempt ?_
    (fun e _ _ _ went hwent => by cases hwent)
  rintro accepted own₁ _ ⟨r, hr, hanswered⟩
  obtain rfl := Except.ok.inj hr
  cases accepted with
  | error e =>
    rw [hrefused e]
    refine Traced.Grows.settled fun went hwent hok => ?_
    obtain rfl := Except.ok.inj hwent
    cases hok
  | ok a =>
    refine Traced.Grows.mono (Traced.Grows.of_uses hother (haccepted a)) ?_
    intro r own₂ hs _ went _ _
    exact (hanswered a rfl).mono hs

/-- A call that queued an effect was accepted, and asked for what its context is for. -/
theorem Went.can_perform {queue : TransactionCall τ} {went : Queued τ} (h : Went queue went)
    (hok : went.result = .ok ()) : (ContextUse.queue queue).CanPerform := by
  cases h with
  | refused e | mismatched e _ _ _ | unvalidated e _ => cases hok
  | queued haccepted hmatched _ _ => exact ⟨haccepted, hmatched⟩

/-- Every use keeps to the discipline. -/
theorem useProtocol_obeyed : (useProtocol τ gateway).Obeyed := by
  intro call
  cases call with
  | run context options =>
    refine Discipline.Conforms.mono (D := useProtocol τ gateway)
      (Q := fun r (own : List (usePlatform τ gateway).Step) => [] <:+ own ∧
        UseSettled (.run context options) r own) (fun _ _ h => h.2) ?_
    change Traced.Grows UseAllowed UseSettled _ (Effects.Task.bind _ _) [] _
    refine Traced.Grows.bind (grows_authority useAllowed_authority uses_now) ?_
      (fun _ _ _ _ => trivial)
    intro startedAt own₁ _ _
    refine Traced.Grows.bind (grows_use_run context options startedAt) ?_
      (fun _ _ _ _ => trivial)
    intro value own₂ _ hstarted
    exact Traced.Grows.settled (hstarted value rfl)
  | queue queue =>
    refine Discipline.Conforms.mono (D := useProtocol τ gateway)
      (Q := fun r (own : List (usePlatform τ gateway).Step) => [] <:+ own ∧
        UseSettled (.queue queue) r own) (fun _ _ h => h.2) ?_
    change Traced.Grows UseAllowed UseSettled _ (Effects.Task.bind _ _) [] _
    refine Traced.Grows.bind (Q := fun r (own' : List (usePlatform τ gateway).Step) =>
      ∀ went, r = .ok went → went.result = .ok () →
      Answered own' (.authority (.consume queue.context)) (.ok false) ∧
        queue.Acceptable ∧ queue.Matched) ?_ ?_ (fun _ _ _ _ => trivial)
    · refine Discipline.Conforms.mono ?_
        (Discipline.Conforms.yields (grows_use_queue queue) (yields_perform gateway queue))
      rintro r own₁ ⟨⟨hs, hanswered⟩, hwent⟩
      exact ⟨hs, fun went hr hok => ⟨hanswered went hr hok, (hwent went hr).can_perform hok⟩⟩
    · intro went own₁ _ hqueued
      exact Traced.Grows.settled (hqueued went rfl)

end grows

/-! ## What is used up -/

/-- No call of the authority group forgets a use of a context. -/
theorem AuthorityOp.exec_consumed {op : AuthorityOp τ} {choice : Choice} {w w' : World τ}
    {res : Except JsError (op.Out τ)} (h : op.exec choice w = some (res, w')) :
    w.consumed ⊆ w'.consumed := by
  have hstored : ∀ {β : Type} {r : Except JsError β × World τ} {res : Except JsError β},
      r.2.consumed = w.consumed → stored choice w r = some (res, w') →
      w.consumed ⊆ w'.consumed := by
    intro β r res hr hs
    rcases stored_cases hs with ⟨-, rfl⟩ | ⟨_, -, rfl | rfl⟩
    · exact hr ▸ List.Subset.refl _
    · exact hr ▸ List.Subset.refl _
    · exact List.Subset.refl _
  cases op with
  | now | isVerified | hasBinding | isIssued | mint | issue | pushRef | resolvedRefs
  | bindCredential | keyMemory =>
    rw [(computed_ok h).2]
    exact List.Subset.refl _
  | consume context =>
    rw [(computed_ok h).2]
    exact List.subset_cons_self _ _
  | uuid =>
    rw [(AuthorityOp.exec_uuid h).1]
    exact List.Subset.refl _
  | randomBytes =>
    rw [AuthorityOp.exec_randomBytes h]
    exact List.Subset.refl _
  | authorize =>
    simp only [AuthorityOp.exec] at h
    split at h
    · cases h
      exact List.Subset.refl _
    · cases h
  | checkCredential p capability resource =>
    simp only [AuthorityOp.exec] at h
    split at h
    · exact hstored rfl h
    · rw [(computed_ok h).2]
      exact List.Subset.refl _
  | recordEvidence row =>
    simp only [AuthorityOp.exec] at h
    split at h
    · refine hstored ?_ h
      split <;> rfl
    · obtain ⟨r, hr, heq⟩ := Option.map_eq_some_iff.mp h
      cases heq
      rw [(computed_ok hr).2]
      exact List.Subset.refl _
  | getEvidence | findByDecision | putEvidence | listKeyAudit => exact hstored rfl h

/-- No call forgets a use of a context. -/
theorem exec_consumed {op : AppOp τ} {choice : Choice} {w w' : World τ}
    {res : Except JsError (op.Out τ)} (h : op.exec choice w = some (res, w')) :
    w.consumed ⊆ w'.consumed := by
  have hstored : ∀ {β : Type} {r : Except JsError β × World τ} {res : Except JsError β},
      r.2.consumed = w.consumed → stored choice w r = some (res, w') →
      w.consumed ⊆ w'.consumed := by
    intro β r res hr hs
    rcases stored_cases hs with ⟨-, rfl⟩ | ⟨_, -, rfl | rfl⟩
    · exact hr ▸ List.Subset.refl _
    · exact hr ▸ List.Subset.refl _
    · exact List.Subset.refl _
  cases op with
  | authority o => exact o.exec_consumed h
  | jobs o => exact hstored rfl h
  | schedules o => exact hstored rfl h
  | webhooks o => exact hstored rfl h
  | notifications o => exact hstored rfl h
  | apiKeys o => exact hstored rfl h
  | configuration o => exact hstored rfl h
  | secretMetadata o => exact hstored rfl h
  | audit o => cases o <;> exact hstored rfl h
  | commit ops =>
    refine hstored ?_ h
    split
    · next w₁ hall =>
      refine applyAll_rel (R := fun w w' => w'.consumed = w.consumed) (fun _ => rfl)
        (fun h₁ h₂ => h₂.trans h₁) (fun op _ w w' hop => ?_) hall
      cases op <;> simp only [TransactionOperation.apply, Option.map_eq_some_iff] at hop
      case jobAudit | webhookAudit | notificationAudit =>
        cases hop
        rfl
      all_goals
        obtain ⟨t, -, rfl⟩ := hop
        rfl
    · rfl
  | host o =>
    rw [o.exec_world h]
    exact List.Subset.refl _

/-- The process was the first to use up the context with this identity. -/
def FirstUse (past : (usePlatform τ gateway).History) (ref pid : Nat) : Prop :=
  ∃ call context before after, context.ref = ref ∧
    .ran pid ⟨call, .authority (.consume context), .ok false, before, after⟩ ∈ past

/-- Who used a context up first is on record, and is one process. -/
structure UsedUp (c : (usePlatform τ gateway).Config) : Prop where
  marked : ∀ ref pid, FirstUse c.past ref pid → ref ∈ c.world.consumed
  unique : ∀ ref p q, FirstUse c.past ref p → FirstUse c.past ref q → p = q

/-- A new first use, or one of before. -/
theorem FirstUse.cases {past : (usePlatform τ gateway).History} {pid ref p : Nat}
    {step : (usePlatform τ gateway).Step} (h : FirstUse (.ran pid step :: past) ref p) :
    (p = pid ∧ ∃ call context before after, context.ref = ref ∧
      step = ⟨call, .authority (.consume context), .ok false, before, after⟩) ∨
    FirstUse past ref p := by
  obtain ⟨call, context, before, after, href, hm⟩ := h
  rcases List.mem_cons.mp hm with heq | hm
  · cases heq
    exact .inl ⟨rfl, call, context, before, after, href, rfl⟩
  · exact .inr ⟨call, context, before, after, href, hm⟩

/-- One call answered: a context is used up first only when it was not used up. -/
theorem UsedUp.step {c : (usePlatform τ gateway).Config} (h : UsedUp c)
    (step : (usePlatform τ gateway).Step) {pid : Nat} {choice : Choice} {procs : List _}
    (hbefore : step.before = c.world)
    (hexec : step.op.exec choice step.before = some (step.res, step.after)) :
    UsedUp (Config.mk procs step.after (.ran pid step :: c.past)) := by
  have hnew : ∀ call context before after,
      step = ⟨call, .authority (.consume context), .ok false, before, after⟩ →
      context.ref ∉ c.world.consumed ∧ context.ref ∈ step.after.consumed := by
    rintro call context before after rfl
    obtain rfl : before = c.world := hbefore
    obtain ⟨hres, hafter⟩ := computed_ok hexec
    have hconsumed : after.consumed = context.ref :: c.world.consumed :=
      congrArg World.consumed hafter
    refine ⟨?_, hconsumed ▸ List.mem_cons_self⟩
    simpa using (Except.ok.inj hres).symm
  refine ⟨fun ref p hfirst => ?_, fun ref p q hp hq => ?_⟩
  · rcases hfirst.cases with ⟨-, call, context, before, after, rfl, hstep⟩ | hold
    · exact (hnew call context before after hstep).2
    · have hmarked := h.marked ref p hold
      exact exec_consumed hexec (hbefore ▸ hmarked)
  · rcases hp.cases with ⟨hpid, call, context, before, after, rfl, hstep⟩ | hpold
    · rcases hq.cases with ⟨hqid, -⟩ | hqold
      · exact hpid.trans hqid.symm
      · exact absurd (h.marked _ q hqold) (hnew call context before after hstep).1
    · rcases hq.cases with ⟨-, call, context, before, after, rfl, hstep⟩ | hqold
      · exact absurd (h.marked _ p hpold) (hnew call context before after hstep).1
      · exact h.unique ref p q hpold hqold

/-- **A context is used up once**, in every run. -/
theorem usedUp_of_run {w : World τ} {as : List (usePlatform τ gateway).Action}
    {c : (usePlatform τ gateway).Config} (hrun : (usePlatform τ gateway).run (Config.init w) as =
      some c) : UsedUp c := by
  have hnone : ∀ ref pid, ¬ FirstUse ([] : (usePlatform τ gateway).History) ref pid := by
    rintro ref pid ⟨call, context, before, after, -, hm⟩
    cases hm
  refine run_induction UsedUp ⟨fun ref p h => absurd h (hnone ref p),
    fun ref p q h _ => absurd h (hnone ref p)⟩ ?_ as hrun
  intro c a c' h hact
  cases a with
  | spawn call =>
    obtain rfl := (Option.some.inj hact).symm
    exact ⟨h.marked, h.unique⟩
  | step pid choice =>
    obtain ⟨call, op, k, res, world, -, hexec, rfl⟩ := act_step hact
    exact h.step ⟨call, op, res, c.world, world⟩ rfl hexec
  | stop pid =>
    obtain ⟨p, -, rfl⟩ := act_stop hact
    have hold : ∀ ref q, FirstUse (.stopped pid p.call :: c.past) ref q → FirstUse c.past ref q := by
      rintro ref q ⟨call, context, before, after, href, hm⟩
      exact ⟨call, context, before, after, href, by simpa using hm⟩
    exact ⟨fun ref q hq => h.marked ref q (hold ref q hq),
      fun ref q q' hq hq' => h.unique ref q q' (hold ref q hq) (hold ref q' hq')⟩
  | env f =>
    obtain ⟨world, henv, rfl⟩ := act_env hact
    obtain rfl := Option.some.inj henv
    exact ⟨fun ref q hq => f.2 c.world (h.marked ref q hq), h.unique⟩

/-! ## One effect a context -/

/-- What performed an effect could, and was a `run` or the first to use its context up. -/
theorem Performed.cases {w : World τ} {as : List (usePlatform τ gateway).Action}
    {c : (usePlatform τ gateway).Config}
    (hrun : (usePlatform τ gateway).run (Config.init w) as = some c)
    {context : ServiceExecutionContext τ} {pid : Nat} (h : Performed c context pid) :
    ∃ call, (started as)[pid]? = some call ∧ call.context = context ∧ call.CanPerform ∧
      (call.isRun ∨ FirstUse c.past context.ref pid) := by
  have hnumbered : Numbered (started as) c := by
    simpa using numbered_of_run (Numbered.init w) as hrun
  rcases h with ⟨step, hown, hop⟩ | ⟨queue, went, hproc, rfl, hok⟩
  · have hm : Event.ran pid step ∈ c.past := mem_ownSteps.mp hown
    obtain ⟨newer, older, hpast⟩ := List.append_of_mem hm
    obtain ⟨hcontext, hisRun, hperform⟩ := Traced.sound useProtocol_obeyed hrun hpast context hop
    exact ⟨step.call, hnumbered.ran pid step hm, hcontext, hperform, .inl hisRun⟩
  · obtain ⟨hanswered, hperform⟩ := Traced.settled useProtocol_obeyed hrun hproc hok
    obtain ⟨call, before, after, hown⟩ := hanswered
    exact ⟨.queue queue, hnumbered.proc pid _ hproc, rfl, hperform,
      .inr ⟨call, queue.context, before, after, rfl, mem_ownSteps.mp hown⟩⟩

/-- Two elements at different places of a list that is pairwise related. -/
theorem apart_of_ne {uses : List (ContextUse τ)} (h : uses.Pairwise ContextUse.Apart)
    {p q : Nat} {a b : ContextUse τ} (hp : uses[p]? = some a) (hq : uses[q]? = some b)
    (hne : p ≠ q) : a.Apart b := by
  obtain ⟨hplt, rfl⟩ := List.getElem?_eq_some_iff.mp hp
  obtain ⟨hqlt, rfl⟩ := List.getElem?_eq_some_iff.mp hq
  rcases Nat.lt_or_gt_of_ne hne with hlt | hgt
  · exact List.pairwise_iff_getElem.mp h p q hplt hqlt hlt
  · exact (List.pairwise_iff_getElem.mp h q p hqlt hplt hgt).symm

/-- **A context authorizes one effect**, in every run in which no context that is good
for a `run` is good for another use: at most one use of each context performs or queues an
effect, and every other is refused. -/
theorem contexts_authorize_one_effect {w : World τ} {as : List (usePlatform τ gateway).Action}
    {c : (usePlatform τ gateway).Config}
    (hrun : (usePlatform τ gateway).run (Config.init w) as = some c)
    (hapart : (started as).Pairwise ContextUse.Apart) : UsedOnce c := by
  refine ⟨fun context p q hp hq => ?_, fun pid call r hproc hnot => ?_⟩
  · obtain ⟨a, ha, hacontext, haperform, hause⟩ := hp.cases hrun
    obtain ⟨b, hb, hbcontext, hbperform, hbuse⟩ := hq.cases hrun
    by_contra hne
    have hdistinct : a.Apart b := apart_of_ne hapart ha hb hne
    have hsame : a.context = b.context := hacontext.trans hbcontext.symm
    -- a `run` is alone, and of the others one was first
    by_cases hruns : a.isRun ∨ b.isRun
    · exact hdistinct hsame hruns ⟨haperform, hbperform⟩
    · obtain ⟨hanot, hbnot⟩ := not_or.mp hruns
      have hfirst := hause.resolve_left hanot
      have hfirst' := hbuse.resolve_left hbnot
      exact hne ((usedUp_of_run hrun).unique context.ref p q hfirst hfirst')
  · have hsettled := Traced.settled useProtocol_obeyed hrun hproc
    cases r with
    | error e => trivial
    | ok answer =>
      cases call with
      | run context options =>
        cases answer with
        | ran value => exact absurd (.inl hsettled) hnot
        | queued went => exact hsettled.elim
      | queue queue =>
        cases answer with
        | ran value => exact hsettled.elim
        | queued went =>
          cases hresult : went.result with
          | error e => exact ⟨e, hresult⟩
          | ok _ => exact absurd (.inr ⟨queue, went, hproc, rfl, hresult⟩) hnot

/-! ### Runs -/

/-- The world in which `clerk` was issued the context for a report. -/
def reportWorld : World Nat where
  clock := 0
  nextRef := 2
  verified := [clerk]
  issued := [reportContext]

/-- A `run` of the context up to its effect. -/
def runsEffect (pid : Nat) (row : String) : List (usePlatform Nat (some storefront)).Action :=
  [.spawn (.run reportContext { service := "jobs" }), .step pid .proceed, .step pid .proceed,
    .step pid .proceed, .step pid (.draw row), .step pid .proceed, .step pid .proceed]

/-- Two `run`s of one context, one after the other. -/
def ranTwice : List (usePlatform Nat (some storefront)).Action :=
  runsEffect 0 "row-0" ++
    [.step 0 (.host (.ok .null)), .step 0 .proceed, .step 0 .proceed, .step 0 .proceed,
      .step 0 .proceed] ++
    runsEffect 1 "row-1"

def reportCall : TransactionCall Nat :=
  .queueJob { tenantId := "acme", type := "report" } reportContext

/-- A job is queued under the context, and another is refused. -/
def queuedTwice : List (usePlatform Nat (some storefront)).Action :=
  [.spawn (.queue reportCall), .step 0 .proceed, .step 0 .proceed, .step 0 .proceed,
    .step 0 (.draw "row-0"), .step 0 .proceed, .step 0 (.draw "job-0"), .step 0 .proceed,
    .step 0 (.draw "audit-0"),
    .spawn (.queue reportCall), .step 1 .proceed, .step 1 .proceed, .step 1 .proceed]

/-- The step begins an effect under the context. -/
def beginsUnder (context : ServiceExecutionContext τ) : (usePlatform τ gateway).Step → Bool
  | ⟨_, .host (.startEffect context'), _, _, _⟩ => decide (context' = context)
  | _ => false

/-- The process queued an effect. -/
def hasQueued (c : (usePlatform τ gateway).Config) (pid : Nat) : Bool :=
  match c.proc pid with
  | some ⟨.queue _, .settled (.ok (.queued ⟨_, .ok _, _⟩))⟩ => true
  | _ => false

theorem beginsUnder_op {context : ServiceExecutionContext τ} {step : (usePlatform τ gateway).Step}
    (h : beginsUnder context step = true) : step.op = .host (.startEffect context) := by
  unfold beginsUnder at h
  split at h
  · exact congrArg _ (congrArg _ (of_decide_eq_true h))
  · cases h

/-- Ran twice, the context authorized two effects. -/
theorem contexts_authorize_one_effect_ranTwice :
    ∃ c, (usePlatform Nat (some storefront)).run (Config.init reportWorld) ranTwice = some c ∧
      ¬ UsedOnce c := by
  obtain ⟨c, hrun, htest⟩ : ∃ c, (usePlatform Nat (some storefront)).run
      (Config.init reportWorld) ranTwice = some c ∧
      ((ownSteps 0 c.past).any (beginsUnder reportContext) &&
        (ownSteps 1 c.past).any (beginsUnder reportContext)) = true :=
    exists_of_run (by decide +kernel)
  simp only [Bool.and_eq_true, List.any_eq_true] at htest
  obtain ⟨⟨s₀, hs₀, h₀⟩, s₁, hs₁, h₁⟩ := htest
  refine ⟨c, hrun, fun honce => ?_⟩
  have hsame := honce.once reportContext 0 1 (.inl ⟨s₀, hs₀, beginsUnder_op h₀⟩)
    (.inl ⟨s₁, hs₁, beginsUnder_op h₁⟩)
  cases hsame

theorem contexts_authorize_one_effect_queuedTwice :
    ∃ c, (usePlatform Nat (some storefront)).run (Config.init reportWorld) queuedTwice = some c ∧
      hasQueued c 0 = true ∧ hasQueued c 1 = false ∧ UsedOnce c := by
  obtain ⟨c, hrun, htest⟩ : ∃ c, (usePlatform Nat (some storefront)).run
      (Config.init reportWorld) queuedTwice = some c ∧ (hasQueued c 0 && !hasQueued c 1) = true :=
    exists_of_run (by decide +kernel)
  have hapart : (started queuedTwice).Pairwise ContextUse.Apart := by
    refine List.pairwise_pair.mpr fun _ hrun => ?_
    rcases hrun with h | h <;> cases h
  simp only [Bool.and_eq_true, Bool.not_eq_true'] at htest
  exact ⟨c, hrun, htest.1, htest.2, contexts_authorize_one_effect hrun hapart⟩

end AppPort
