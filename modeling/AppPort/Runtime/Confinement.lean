import AppPort.Authority.Custody
import AppPort.Authority.Issuance

/-!
# Confinement — what custody is asked for

An effect reaches custody through its tools only. Each tool reads the clock, asserts the
context, compares the reference with the one the effect was authorized for and calls
custody in one turn, so custody is asked for nothing else and not after the context
expired; `storeCredential` alone calls custody a second time, in the turn in which the
status was answered, without asserting the context again.

A tool pushes the reference it is asked for before it checks it, and a completed row
names the first reference that was pushed. So the row names what the effect was authorized
for as long as the first thing the effect asks for is that.

What is proved: both, for every effect and whatever others do while a call is awaited,
under those two conditions. `statusOfAnother` and `storedLate` are effects without them.
-/

namespace AppPort

open Effects

variable {τ : Type} [Timestamp τ]

/-! ## Turns -/

/-- Others run while the call is awaited; every other call returns at once. -/
def AuthorityOp.awaited : AuthorityOp τ → Bool
  | .authorize _ | .recordEvidence _ | .getEvidence _ | .putEvidence _ _ | .findByDecision _
  | .checkCredential _ _ _ | .listKeyAudit _ => true
  | _ => false

/-- The same of every call. -/
def AppOp.awaited : AppOp τ → Bool
  | .authority op => op.awaited
  | .host (.startEffect _) | .host (.startJobHandler _ _) | .host (.startInboundHandler _ _ _)
  | .host (.startChannel _ _) => false
  | _ => true

/-- `resolvedRefs` of a run, in the order they were pushed in. -/
def World.refs (w : World τ) (run : String) : List String :=
  (w.resolved.reverse.filter (fun entry => entry.1 == run)).map (fun entry => entry.2)

/-- What others may do: anything, save to the evidence rows and the reference lists under
the ids of `mine`. -/
structure Aside (mine : Set String) (w w' : World τ) : Prop where
  evidence : ∀ id ∈ mine, w'.evidence.get id = w.evidence.get id
  refs : ∀ id ∈ mine, w'.refs id = w.refs id

/-- The context has not expired. -/
def LiveAt (context : ServiceExecutionContext τ) (t : τ) : Prop :=
  Timestamp.getTime t < Timestamp.getTime context.expiresAt

/-- No context expires while custody is asked for a status under its decision. -/
def StatusInTime : AppOp τ → World τ → World τ → Prop
  | .host (.custodyStatus request), w, w' => ∀ context ∈ w.issued,
      context.authorization.decisionId = request.authorizationRef → LiveAt context w.clock →
      LiveAt context w'.clock
  | _, _, _ => True

/-- The services as they run on one thread: an effect moves in turns, others in between,
and what passes while a call is awaited is as `rule` says. -/
def turns (mine : Set String) (rule : AppOp τ → World τ → World τ → Prop) :
    Setting (services τ) (World τ) where
  answers op w res w' := DrawsFrom mine op res ∧ rule op w w' ∧ ∃ choice,
    if op.awaited then ∃ w₀ w₁, Aside mine w w₀ ∧ AppOp.exec op choice w₀ = some (res, w₁) ∧
      Aside mine w₁ w'
    else AppOp.exec op choice w = some (res, w')
  between w w' := w' = w

/-! ## What is claimed -/

/-- How an effect comes to run. -/
inductive EffectEntry (τ : Type) where
  | execute (capability : String) (principal : PrincipalInput) (resource : ServiceResource)
  | run (context : ServiceExecutionContext τ)

namespace EffectEntry

def perform (gateway : ServiceGateway) (options : ExecuteOptions)
    (effect : ServiceExecutionContext τ → EffectProgram) : EffectEntry τ → Svc τ JsValue
  | .execute capability principal resource =>
    gateway.execute capability principal resource options fun context tools =>
      (effect context).perform gateway tools
  | .run context => do
    let startedAt ← now
    ServiceGateway.run context options (fun context tools => (effect context).perform gateway tools)
      startedAt

/-- The context the effect runs under: the one issued on the request, or the one given. -/
def Grants (gateway : ServiceGateway) : EffectEntry τ → ServiceExecutionContext τ → Prop
  | .execute capability principal resource, context =>
    IssuedOn gateway capability principal resource context
  | .run given, context => context = given

/-- The resource that was allowed. -/
def resource : EffectEntry τ → ServiceResource
  | .execute _ _ resource => resource
  | .run context => context.resource

omit [Timestamp τ] in
theorem Grants.resource {gateway : ServiceGateway} {entry : EffectEntry τ}
    {context : ServiceExecutionContext τ} (h : entry.Grants gateway context) :
    context.resource = entry.resource := by
  cases entry with
  | execute capability principal resource => exact IssuedOn.resource h
  | run given => exact congrArg ServiceExecutionContext.resource h

end EffectEntry

/-- What a call asks custody for. -/
def AppOp.custodyRequest? : AppOp τ → Option SecretRequest
  | .host (.withSecret request) | .host (.custodyStatus request)
  | .host (.custodyStore request _) => some request
  | _ => none

/-- The request is for the credential of the context, on its behalf. -/
structure ConfinedTo (context : ServiceExecutionContext τ) (request : SecretRequest) : Prop where
  credentialRef : context.resource.attribute "credentialRef" = some request.credentialRef
  tenantId : request.tenantId = context.tenantId
  principalId : request.principalId = context.principal.principalId
  authorizationRef : request.authorizationRef = context.authorization.decisionId

/-- A call of custody is confined to the context of the effect, which has not expired. -/
def Confined (gateway : ServiceGateway) (entry : EffectEntry τ) (op : AppOp τ) (w : World τ) : Prop :=
  ∀ request, op.custodyRequest? = some request →
    ∃ context, entry.Grants gateway context ∧ ConfinedTo context request ∧ LiveAt context w.clock

/-- The reference a row names is the caller's, or one the effect was authorized for. -/
def RefAuthorized (entry : EffectEntry τ) (options : ExecuteOptions) (row : EffectEvidence τ) :
    Prop :=
  ∀ ref, row.credentialRef = some ref →
    options.credentialRef = some ref ∨ entry.resource.attribute "credentialRef" = some ref

/-- Every row under an id of `mine` was there before, or names such a reference. -/
def RowsAuthorized (mine : Set String) (entry : EffectEntry τ) (options : ExecuteOptions)
    (w₀ w : World τ) : Prop :=
  ∀ id ∈ mine, ∀ row, w.evidence.get id = some row →
    w₀.evidence.get id = some row ∨ RefAuthorized entry options row

/-- A reference that may be pushed first: the authorized one, or one that is not named. -/
def MayAskFirst (entry : EffectEntry τ) (ref : String) : Prop :=
  ref = "" ∨ entry.resource.attribute "credentialRef" = some ref

/-! ## What a call leaves alone -/

section frame

variable {mine : Set String} {rule : AppOp τ → World τ → World τ → Prop} {w w' w'' : World τ}

omit [Timestamp τ] in
theorem Aside.refl (mine : Set String) (w : World τ) : Aside mine w w :=
  ⟨fun _ _ => rfl, fun _ _ => rfl⟩

omit [Timestamp τ] in
theorem Aside.trans (h : Aside mine w w') (h' : Aside mine w' w'') : Aside mine w w'' where
  evidence id hid := (h'.evidence id hid).trans (h.evidence id hid)
  refs id hid := (h'.refs id hid).trans (h.refs id hid)

/-- The calls that touch neither rows nor reference lists. -/
def asideCalls : Set (AppOp τ) :=
  {op | op.writesEvidence = false ∧ ∀ run ref, op ≠ .authority (.pushRef run ref)}

omit [Timestamp τ] in
theorem consultCalls_plain : consultCalls (τ := τ) ⊆ asideCalls := by
  rintro op ⟨o, rfl, hwrites, -, hpush⟩
  refine ⟨hwrites, fun run ref h => ?_⟩
  cases h
  cases hpush

/-- Only pushing a reference changes a list. -/
theorem exec_resolved {op : AppOp τ} {choice : Choice} {res : Except JsError (op.Out τ)}
    (h : op.exec choice w = some (res, w')) (hop : ∀ run ref, op ≠ .authority (.pushRef run ref)) :
    w'.resolved = w.resolved := by
  have hstored : ∀ {β : Type} {r : Except JsError β × World τ} {res : Except JsError β},
      r.2.resolved = w.resolved → stored choice w r = some (res, w') →
      w'.resolved = w.resolved := by
    intro β r res hr hs
    rcases stored_cases hs with ⟨-, rfl⟩ | ⟨_, -, rfl | rfl⟩
    · exact hr
    · exact hr
    · rfl
  cases op with
  | authority o =>
    cases o with
    | pushRef run ref => exact absurd rfl (hop run ref)
    | now | isVerified | hasBinding | isIssued | mint | issue | consume | resolvedRefs
    | bindCredential | keyMemory =>
      rw [(computed_ok h).2]
    | uuid => rw [(AuthorityOp.exec_uuid h).1]
    | randomBytes => rw [AuthorityOp.exec_randomBytes h]
    | authorize =>
      simp only [AppOp.exec, AuthorityOp.exec] at h
      split at h
      · cases h
        rfl
      · cases h
    | checkCredential =>
      simp only [AppOp.exec, AuthorityOp.exec] at h
      split at h
      · exact hstored rfl h
      · rw [(computed_ok h).2]
    | recordEvidence row =>
      simp only [AppOp.exec, AuthorityOp.exec] at h
      split at h
      · refine hstored ?_ h
        split <;> rfl
      · obtain ⟨r, hr, heq⟩ := Option.map_eq_some_iff.mp h
        cases heq
        rw [(computed_ok hr).2]
    | getEvidence | findByDecision | putEvidence | listKeyAudit => exact hstored rfl h
  | jobs o => exact hstored rfl h
  | schedules o => exact hstored rfl h
  | webhooks o => exact hstored rfl h
  | notifications o => exact hstored rfl h
  | apiKeys o => exact hstored rfl h
  | configuration o => exact hstored rfl h
  | secretMetadata o => exact hstored rfl h
  | audit o => cases o <;> exact hstored rfl h
  | commit ops =>
    refine hstored ?_ h
    split
    · next w₁ hall =>
      refine applyAll_rel (R := fun w w' => w'.resolved = w.resolved) (fun _ => rfl)
        (fun h₁ h₂ => h₂.trans h₁) (fun op _ w w' hop => ?_) hall
      cases op <;> simp only [TransactionOperation.apply, Option.map_eq_some_iff] at hop
      case jobAudit | webhookAudit | notificationAudit =>
        cases hop
        rfl
      all_goals
        obtain ⟨t, -, rfl⟩ := hop
        rfl
    · rfl
  | host o => rw [o.exec_world h]

/-- An answer is an execution, with others aside before and after it. -/
theorem turns_executes {op : AppOp τ} {res : Except JsError (op.Out τ)}
    (h : (turns mine rule).answers op w res w') : ∃ choice w₀ w₁, Aside mine w w₀ ∧
      op.exec choice w₀ = some (res, w₁) ∧ Aside mine w₁ w' := by
  obtain ⟨-, -, choice, hexec⟩ := h
  split at hexec
  · exact ⟨choice, hexec⟩
  · exact ⟨choice, w, w', Aside.refl mine w, hexec, Aside.refl mine w'⟩

theorem turns_byExecution : ByExecution (turns mine rule) := by
  intro op w res w' h
  obtain ⟨choice, w₀, w₁, -, hexec, -⟩ := turns_executes h
  exact ⟨choice, w₀, w₁, hexec⟩

theorem answers_plain {op : AppOp τ} {res : Except JsError (op.Out τ)}
    (h : (turns mine rule).answers op w res w') (hop : op ∈ asideCalls) : Aside mine w w' := by
  obtain ⟨choice, w₀, w₁, hbefore, hexec, hafter⟩ := turns_executes h
  have hevidence := exec_evidence hexec hop.1
  have hresolved := exec_resolved hexec hop.2
  have hcall : Aside mine w₀ w₁ :=
    ⟨fun id _ => by rw [hevidence], fun id _ => by rw [World.refs, hresolved, World.refs]⟩
  exact (hbefore.trans hcall).trans hafter

end frame

/-! ## The tools -/

section tools

variable {mine : Set String} {rule : AppOp τ → World τ → World τ → Prop}
  {gateway : ServiceGateway} {entry : EffectEntry τ} {options : ExecuteOptions} {w₀ : World τ}
  {α : Type}

/-- How a call is made. -/
def Made (mine : Set String) (gateway : ServiceGateway) (entry : EffectEntry τ)
    (options : ExecuteOptions) (w₀ : World τ) (op : AppOp τ) (w : World τ) : Prop :=
  Confined gateway entry op w ∧ RowsAuthorized mine entry options w₀ w

/-- What is kept until a call changes a row or a list: others do not break it. -/
structure Lasting (mine : Set String) (entry : EffectEntry τ) (options : ExecuteOptions)
    (w₀ : World τ) (I : World τ → Prop) : Prop where
  aside : ∀ {w w'}, Aside mine w w' → I w → I w'
  rows : ∀ {w}, I w → RowsAuthorized mine entry options w₀ w

variable {I : World τ → Prop}

/-- A call of custody asks for nothing where it is none. -/
theorem Confined.of_none {op : AppOp τ} {w : World τ} (h : op.custodyRequest? = none) :
    Confined gateway entry op w := by
  intro request hrequest
  rw [h] at hrequest
  cases hrequest

/-- The plain calls of a task. -/
theorem keeps_plain (hI : Lasting mine entry options w₀ I) {calls : Set (AppOp τ)} {t : Svc τ α}
    (ht : Task.Uses (S := services τ) calls t) (hplain : calls ⊆ asideCalls)
    (hcustody : ∀ op ∈ calls, op.custodyRequest? = none) {w : World τ} (hw : I w) :
    t.Keeps (turns mine rule) (Made mine gateway entry options w₀) w (fun _ w' => I w') := by
  refine Task.Keeps.of_uses (E := turns mine rule) (I := I) ?_ ?_ ?_ ht hw
  · intro op hop w hw
    exact ⟨Confined.of_none (hcustody op hop), hI.rows hw⟩
  · intro op hop w res w' hw hanswer
    exact hI.aside (answers_plain hanswer (hplain hop)) hw
  · rintro w w' hw rfl
    exact hw

theorem keeps_consult (rule : AppOp τ → World τ → World τ → Prop) (gateway : ServiceGateway)
    (hI : Lasting mine entry options w₀ I) {t : Svc τ α}
    (ht : Task.Uses (S := services τ) consultCalls t) {w : World τ} (hw : I w) :
    t.Keeps (turns mine rule) (Made mine gateway entry options w₀) w (fun _ w' => I w') := by
  refine keeps_plain hI ht consultCalls_plain ?_ hw
  rintro op ⟨o, rfl, -⟩
  rfl

/-- One plain call that returns at once, in the world it is made in. -/
theorem keeps_now {w : World τ} (hw : RowsAuthorized mine entry options w₀ w) :
    (now : Svc τ τ).Keeps (turns mine rule) (Made mine gateway entry options w₀) w
      (fun r w' => r = .ok w.clock ∧ w' = w) := by
  refine Task.keeps_perform ?_
  rintro w₁ rfl
  refine ⟨⟨Confined.of_none rfl, hw⟩, ?_⟩
  rintro res w₂ ⟨-, -, choice, hexec⟩
  exact computed_ok hexec

theorem keeps_isIssued (context : ServiceExecutionContext τ) {w : World τ}
    (hw : RowsAuthorized mine entry options w₀ w) :
    (AuthorityOp.isIssued context).perform.Keeps (turns mine rule)
      (Made mine gateway entry options w₀) w
      (fun r w' => r = .ok (decide (context ∈ w.issued)) ∧ w' = w) := by
  refine Task.keeps_perform ?_
  rintro w₁ rfl
  refine ⟨⟨Confined.of_none rfl, hw⟩, ?_⟩
  rintro res w₂ ⟨-, -, choice, hexec⟩
  exact computed_ok hexec

/-- Asserting a context is one turn: where it passes, the context is live now. -/
theorem keeps_assert {f : ServiceExecutionContext τ → Svc τ α}
    {R : Except JsError α → World τ → Prop} (context : ServiceExecutionContext τ) {w : World τ}
    (hw : RowsAuthorized mine entry options w₀ w)
    (hok : context ∈ w.issued → LiveAt context w.clock →
      (f context).Keeps (turns mine rule) (Made mine gateway entry options w₀) w R)
    (herr : ∀ e, R (.error e) w) :
    (do
      let at_ ← now
      let issued : Bool ← (AuthorityOp.isIssued context).perform
      let context ← check (assertExecutionContext context issued context.capability none at_)
      f context : Svc τ α).Keeps (turns mine rule) (Made mine gateway entry options w₀) w R := by
  refine Task.Keeps.bind (keeps_now hw) ?_ (fun e w' h => by cases h.1)
  rintro at_ w₁ ⟨hat, rfl⟩
  obtain rfl := Except.ok.inj hat
  refine Task.Keeps.bind (keeps_isIssued context hw) ?_ (fun e w' h => by cases h.1)
  rintro issued w₂ ⟨hissued, rfl⟩
  obtain rfl := Except.ok.inj hissued
  refine Task.Keeps.bind (Task.keeps_ofExcept _ w₂) ?_ ?_
  · rintro context' w₃ ⟨hcontext, rfl⟩
    obtain ⟨rfl, hissued, -, hlive⟩ := assertExecutionContext_ok hcontext.symm
    exact hok (of_decide_eq_true hissued) hlive
  · rintro e w₃ ⟨-, rfl⟩
    exact herr e

/-- The references a run has asked for begin with one its row may name. -/
def FirstAuthorized (entry : EffectEntry τ) (options : ExecuteOptions) (run : String)
    (w : World τ) : Prop :=
  options.credentialRef = none → ∀ ref, (w.refs run).head? = some ref → MayAskFirst entry ref

/-- What stands while an effect runs: its row, and the list of what it asked for. -/
structure InEffect (mine : Set String) (entry : EffectEntry τ) (options : ExecuteOptions)
    (w₀ : World τ) (run : String) (w : World τ) : Prop where
  rows : RowsAuthorized mine entry options w₀ w
  row : ∃ row, w.evidence.get run = some row ∧ RefAuthorized entry options row
  first : FirstAuthorized entry options run w

/-- Besides, it has asked for something. -/
structure HasAsked (mine : Set String) (entry : EffectEntry τ) (options : ExecuteOptions)
    (w₀ : World τ) (run : String) (w : World τ) : Prop
    extends InEffect mine entry options w₀ run w where
  asked : w.refs run ≠ []

variable {run : String}

omit [Timestamp τ] in
theorem RowsAuthorized.aside {w w' : World τ} (h : RowsAuthorized mine entry options w₀ w)
    (ha : Aside mine w w') : RowsAuthorized mine entry options w₀ w' := by
  intro id hid r hr
  rw [ha.evidence id hid] at hr
  exact h id hid r hr

omit [Timestamp τ] in
theorem InEffect.aside {w w' : World τ} (hrun : run ∈ mine) (ha : Aside mine w w')
    (h : InEffect mine entry options w₀ run w) :
    InEffect mine entry options w₀ run w' where
  rows := h.rows.aside ha
  row := by
    obtain ⟨row, hrow, hauthorized⟩ := h.row
    exact ⟨row, (ha.evidence run hrun).trans hrow, hauthorized⟩
  first := by
    intro hnone ref href
    rw [ha.refs run hrun] at href
    exact h.first hnone ref href

omit [Timestamp τ] in
theorem inEffect_lasting (hrun : run ∈ mine) :
    Lasting mine entry options w₀ (InEffect mine entry options w₀ run) where
  aside ha h := h.aside hrun ha
  rows h := h.rows

omit [Timestamp τ] in
theorem hasAsked_lasting (hrun : run ∈ mine) :
    Lasting mine entry options w₀ (HasAsked mine entry options w₀ run) where
  aside ha h := ⟨h.toInEffect.aside hrun ha, by rw [ha.refs run hrun]; exact h.asked⟩
  rows h := h.rows

/-- Pushing the reference that is asked for. -/
theorem keeps_pushRef {ref : String} {w : World τ}
    (hw : InEffect mine entry options w₀ run w)
    (href : options.credentialRef = none → w.refs run = [] → MayAskFirst entry ref) :
    (AuthorityOp.pushRef run ref).perform.Keeps (turns mine rule)
      (Made mine gateway entry options w₀) w
      (fun _ w' => HasAsked mine entry options w₀ run w') := by
  refine Task.keeps_perform ?_
  rintro w₁ rfl
  refine ⟨⟨Confined.of_none rfl, hw.rows⟩, ?_⟩
  rintro res w₂ ⟨-, -, choice, hexec⟩
  obtain ⟨-, rfl⟩ := computed_ok hexec
  have hrefs : World.refs { w₁ with resolved := (run, ref) :: w₁.resolved } run =
      w₁.refs run ++ [ref] := by
    simp [World.refs]
  refine ⟨⟨hw.rows, hw.row, fun hnone ref' href' => ?_⟩, ?_⟩
  · rw [hrefs] at href'
    cases hlist : w₁.refs run with
    | nil =>
      rw [hlist] at href'
      obtain rfl := Option.some.inj href'
      exact href hnone hlist
    | cons first rest =>
      rw [hlist] at href'
      obtain rfl := Option.some.inj href'
      exact hw.first hnone first (by rw [hlist]; rfl)
  · rw [hrefs]
    simp

/-- A call of custody that is confined. -/
theorem keeps_custody (context : ServiceExecutionContext τ) {request : SecretRequest}
    {op : HostOp τ} {w : World τ} (hI : Lasting mine entry options w₀ I) (hw : I w)
    (hop : (AppOp.host op).custodyRequest? = some request) (hgrants : entry.Grants gateway context)
    (hconfined : ConfinedTo context request) (hlive : LiveAt context w.clock) :
    op.perform.Keeps (turns mine rule) (Made mine gateway entry options w₀) w
      (fun _ w' => I w' ∧ rule (.host op) w w') := by
  refine Task.keeps_perform ?_
  rintro w₁ rfl
  refine ⟨⟨?_, hI.rows hw⟩, ?_⟩
  · intro request' hrequest
    rw [hop] at hrequest
    obtain rfl := Option.some.inj hrequest
    exact ⟨context, hgrants, hconfined, hlive⟩
  · intro res w₂ hanswer
    refine ⟨hI.aside (answers_plain hanswer ⟨rfl, fun run ref h => by cases h⟩) hw, ?_⟩
    exact hanswer.2.1

variable {context : ServiceExecutionContext τ} {provider : Option String}

/-- `withCredential` keeps what its use keeps. -/
theorem keeps_withCredential {ref purpose : String} {use : JsValue → Svc τ α}
    (hrun : run ∈ mine) (hgrants : entry.Grants gateway context) {w : World τ}
    (hw : InEffect mine entry options w₀ run w)
    (href : options.credentialRef = none → w.refs run = [] → MayAskFirst entry ref)
    (huse : ∀ value w, HasAsked mine entry options w₀ run w →
      (use value).Keeps (turns mine rule) (Made mine gateway entry options w₀) w
        (fun _ w' => HasAsked mine entry options w₀ run w')) :
    (gateway.withCredential ⟨run, context, provider⟩ ref purpose use).Keeps (turns mine rule)
      (Made mine gateway entry options w₀) w
      (fun _ w' => HasAsked mine entry options w₀ run w') := by
  have hlasting : Lasting mine entry options w₀ (HasAsked mine entry options w₀ run) :=
    hasAsked_lasting hrun
  unfold ServiceGateway.withCredential
  refine Task.Keeps.bind (keeps_pushRef hw href) ?_ (fun _ _ h => h)
  intro _ w₁ hasked
  refine keeps_assert context hasked.rows ?_ (fun _ => hasked)
  intro _ hlive
  split
  · exact hasked
  next hattribute =>
  have hattribute := not_not.mp hattribute
  split
  · exact hasked
  refine Task.Keeps.bind (keeps_custody context hlasting hasked rfl hgrants ?_ hlive)
    ?_ (fun _ _ h => h.1)
  · exact ⟨hattribute, rfl, rfl, rfl⟩
  · rintro answer w₂ ⟨hasked₂, -⟩
    split
    · exact huse _ w₂ hasked₂
    · exact hasked₂
    · exact hasked₂
    · exact hasked₂
    · exact hasked₂
    · exact hasked₂

/-- `custodyContext`: the context is live, and for this reference. -/
theorem keeps_custodyContext {ref : String} {f : ServiceExecutionContext τ → Svc τ α}
    {R : Except JsError α → World τ → Prop} {w : World τ}
    (hw : RowsAuthorized mine entry options w₀ w)
    (hok : context ∈ w.issued → LiveAt context w.clock →
      context.resource.attribute "credentialRef" = some ref →
      (f context).Keeps (turns mine rule) (Made mine gateway entry options w₀) w R)
    (herr : ∀ e, R (.error e) w) :
    ((ServiceGateway.custodyContext context ref).bind f).Keeps (turns mine rule)
      (Made mine gateway entry options w₀) w R := by
  refine Task.Keeps.bind (Q := fun r w' => w' = w ∧ ∀ context', r = .ok context' →
    context' = context ∧ context ∈ w.issued ∧ LiveAt context w.clock ∧
      context.resource.attribute "credentialRef" = some ref) ?_ ?_ ?_
  · unfold ServiceGateway.custodyContext
    refine keeps_assert context hw ?_ ?_
    · intro hissued hlive
      split
      · refine ⟨rfl, fun context' h => ?_⟩
        cases h
      next hattribute =>
      refine ⟨rfl, fun context' h => ?_⟩
      obtain rfl := Except.ok.inj h
      exact ⟨rfl, hissued, hlive, not_not.mp hattribute⟩
    · intro e
      refine ⟨rfl, fun context' h => ?_⟩
      cases h
  · rintro context' w' ⟨rfl, h⟩
    obtain ⟨rfl, hissued, hlive, hattribute⟩ := h context' rfl
    exact hok hissued hlive hattribute
  · rintro e w' ⟨rfl, -⟩
    exact herr e

/-- `credentialStatus` calls custody in the turn in which it asserts the context. -/
theorem keeps_credentialStatus {ref : String} {asked : CredentialStatusOptions}
    (hrun : run ∈ mine) (hgrants : entry.Grants gateway context) {w : World τ}
    (hw : InEffect mine entry options w₀ run w)
    (href : options.credentialRef = none → w.refs run = [] → MayAskFirst entry ref) :
    (gateway.credentialStatus ⟨run, context, provider⟩ ref asked).Keeps (turns mine rule)
      (Made mine gateway entry options w₀) w
      (fun _ w' => HasAsked mine entry options w₀ run w') := by
  have hlasting : Lasting mine entry options w₀ (HasAsked mine entry options w₀ run) :=
    hasAsked_lasting hrun
  unfold ServiceGateway.credentialStatus
  refine Task.Keeps.bind (keeps_pushRef hw href) ?_ (fun _ _ h => h)
  intro _ w₁ hasked
  refine keeps_custodyContext hasked.rows ?_ (fun _ => hasked)
  intro _ hlive hattribute
  split
  · exact hasked
  refine Task.Keeps.bind (keeps_custody context hlasting hasked rfl hgrants ?_ hlive)
    ?_ (fun _ _ h => h.1)
  · exact ⟨hattribute, rfl, rfl, rfl⟩
  · rintro answer w₂ ⟨hasked₂, -⟩
    exact hasked₂

/-- `storeCredential` calls custody a second time when the status is answered: the context
is still live if the status comes in time. -/
theorem keeps_storeCredential {ref value : String} {asked : CredentialCustodyOptions}
    (hrule : ∀ op w w', rule op w w' → StatusInTime op w w')
    (hrun : run ∈ mine) (hgrants : entry.Grants gateway context) {w : World τ}
    (hw : InEffect mine entry options w₀ run w)
    (href : options.credentialRef = none → w.refs run = [] → MayAskFirst entry ref) :
    (gateway.storeCredential ⟨run, context, provider⟩ ref value asked).Keeps (turns mine rule)
      (Made mine gateway entry options w₀) w
      (fun _ w' => HasAsked mine entry options w₀ run w') := by
  have hlasting : Lasting mine entry options w₀ (HasAsked mine entry options w₀ run) :=
    hasAsked_lasting hrun
  unfold ServiceGateway.storeCredential
  refine Task.Keeps.bind (keeps_pushRef hw href) ?_ (fun _ _ h => h)
  intro _ w₁ hasked
  refine keeps_custodyContext hasked.rows ?_ (fun _ => hasked)
  intro hissued hlive hattribute
  have hconfined : ConfinedTo context (ServiceGateway.custodyRequest context ref asked) :=
    ⟨hattribute, rfl, rfl, rfl⟩
  split
  · exact hasked
  refine Task.Keeps.bind (keeps_custody context hlasting hasked rfl hgrants hconfined
    hlive) ?_ (fun _ _ h => h.1)
  rintro answer w₂ ⟨hasked₂, hstatus⟩
  have hlive₂ : LiveAt context w₂.clock := hrule _ _ _ hstatus context hissued rfl hlive
  refine Task.Keeps.bind (Task.keeps_ofExcept _ w₂) ?_ (fun e w' h => by obtain ⟨-, rfl⟩ := h; exact hasked₂)
  rintro status w₃ ⟨-, rfl⟩
  split
  · exact hasked₂
  refine Task.Keeps.bind (keeps_custody context hlasting hasked₂ rfl hgrants hconfined
    hlive₂) ?_ (fun _ _ h => h.1)
  rintro answer w₄ ⟨hasked₄, -⟩
  refine Task.Keeps.bind (Task.keeps_ofExcept _ w₄) ?_ (fun e w' h => by obtain ⟨-, rfl⟩ := h; exact hasked₄)
  rintro result w₅ ⟨-, rfl⟩
  exact hasked₄

/-- **Every program keeps to the credential it was given**, if what it asks for first is
that. The induction is on the program; a program that has asked for something may ask for
anything next. -/
theorem keeps_program (provider : Option String)
    (hrule : ∀ op w w', rule op w w' → StatusInTime op w w')
    (hrun : run ∈ mine) (hgrants : entry.Grants gateway context) (program : EffectProgram) :
    (∀ w, InEffect mine entry options w₀ run w →
      (options.credentialRef = none → w.refs run = [] → program.AsksFirst (MayAskFirst entry)) →
      (program.perform gateway ⟨run, context, provider⟩).Keeps (turns mine rule)
        (Made mine gateway entry options w₀) w
        (fun _ w' => InEffect mine entry options w₀ run w' ∧
          (w.refs run ≠ [] → w'.refs run ≠ []))) := by
  induction program with
  | settled r =>
    intro w hw _
    exact ⟨hw, fun h => h⟩
  | withCredential ref purpose use k ihuse ihk =>
    intro w hw hfirst
    refine Task.Keeps.settleWith (Q := fun _ w' => HasAsked mine entry options w₀ run w') ?_
      (keeps_withCredential hrun hgrants hw hfirst ?_)
    · intro r w' hasked
      refine Task.Keeps.mono ?_ (ihk r w' hasked.toInEffect fun _ h => absurd h hasked.asked)
      intro _ w'' h
      exact ⟨h.1, fun _ => h.2 hasked.asked⟩
    · intro value w' hasked
      refine Task.Keeps.mono ?_ (ihuse value w' hasked.toInEffect fun _ h => absurd h hasked.asked)
      intro _ w'' h
      exact ⟨h.1, h.2 hasked.asked⟩
  | storeCredential ref value asked k ihk =>
    intro w hw hfirst
    refine Task.Keeps.settleWith (Q := fun _ w' => HasAsked mine entry options w₀ run w') ?_
      (keeps_storeCredential hrule hrun hgrants hw hfirst)
    intro r w' hasked
    refine Task.Keeps.mono ?_ (ihk r w' hasked.toInEffect fun _ h => absurd h hasked.asked)
    intro _ w'' h
    exact ⟨h.1, fun _ => h.2 hasked.asked⟩
  | credentialStatus ref asked k ihk =>
    intro w hw hfirst
    refine Task.Keeps.settleWith (Q := fun _ w' => HasAsked mine entry options w₀ run w') ?_
      (keeps_credentialStatus hrun hgrants hw hfirst)
    intro r w' hasked
    refine Task.Keeps.mono ?_ (ihk r w' hasked.toInEffect fun _ h => absurd h hasked.asked)
    intro _ w'' h
    exact ⟨h.1, fun _ => h.2 hasked.asked⟩
  | elsewhere k ihk =>
    intro w hw hfirst
    refine Task.Keeps.settleWith (Q := fun _ w' => InEffect mine entry options w₀ run w' ∧
      w'.refs run = w.refs run) ?_ ?_
    · rintro r w' ⟨hw', hrefs⟩
      refine Task.Keeps.mono ?_ (ihk r w' hw' fun hnone hempty => ?_)
      · intro _ w'' h
        rw [hrefs] at h
        exact h
      · exact hfirst hnone (hrefs ▸ hempty) r
    · have hlasting : Lasting mine entry options w₀ (fun w' =>
          InEffect mine entry options w₀ run w' ∧ w'.refs run = w.refs run) := by
        refine ⟨?_, fun h => h.1.rows⟩
        rintro w' w'' ha ⟨hw', hrefs⟩
        exact ⟨hw'.aside hrun ha, (ha.refs run hrun).trans hrefs⟩
      have hcall : Task.Uses (S := services τ) {.host (.awaitEffect context)}
          (HostOp.awaitEffect context).perform := Task.uses_perform rfl
      refine keeps_plain hlasting hcall ?_ ?_ ⟨hw, rfl⟩
      · rintro op rfl
        exact ⟨rfl, fun run ref h => by cases h⟩
      · rintro op rfl
        rfl

/-! ## The effect in its entry -/

/-- Recording writes the row or nothing. -/
theorem exec_records_or {row : EffectEvidence τ} {choice : Choice} {w w' : World τ}
    {res : Except JsError Unit}
    (h : (AuthorityOp.recordEvidence row).exec choice w = some (res, w')) :
    w'.evidence = w.evidence ∨ w'.evidence = w.evidence.put row.id row := by
  rcases exec_records h with ⟨hsame, -⟩ | ⟨-, hput⟩
  · exact .inl hsame
  · exact .inr hput

/-- What writing a row that names nothing unauthorized does. -/
theorem writes_authorized {op : AuthorityOp τ} {id : String} {written : EffectEvidence τ}
    (hop : ∀ choice w₁ res w₂, op.exec choice w₁ = some (res, w₂) →
      w₂.evidence = w₁.evidence ∨ w₂.evidence = w₁.evidence.put id written)
    (hpush : ∀ run ref, AppOp.authority op ≠ .authority (.pushRef run ref))
    (hwritten : RefAuthorized entry options written) {w w' : World τ}
    {res : Except JsError (op.Out τ)}
    (hanswer : (turns mine rule).answers (.authority op) w res w')
    (hw : RowsAuthorized mine entry options w₀ w) :
    RowsAuthorized mine entry options w₀ w' ∧ (∀ id ∈ mine, w'.refs id = w.refs id) ∧
      ∀ id' ∈ mine, w'.evidence.get id' = w.evidence.get id' ∨
        w'.evidence.get id' = some written := by
  obtain ⟨choice, w₃, w₄, hbefore, hexec, hafter⟩ := turns_executes hanswer
  have hresolved := exec_resolved hexec hpush
  have hgets : ∀ id' ∈ mine, w'.evidence.get id' = w.evidence.get id' ∨
      w'.evidence.get id' = some written := by
    intro id' hid'
    rw [hafter.evidence id' hid', ← hbefore.evidence id' hid']
    rcases hop choice w₃ res w₄ hexec with heq | heq
    · exact .inl (congrArg (fun t => t.get id') heq)
    · rw [heq, Table.get_put]
      split
      · exact .inr rfl
      · exact .inl rfl
  refine ⟨?_, fun id hid => ?_, hgets⟩
  · intro id' hid' r hr
    rcases hgets id' hid' with heq | heq
    · exact hw id' hid' r (heq ▸ hr)
    · obtain rfl := Option.some.inj (heq.symm.trans hr)
      exact .inr hwritten
  · rw [hafter.refs id hid, World.refs, hresolved]
    exact hbefore.refs id hid

omit [Timestamp τ] in
/-- The row an effect starts with names the caller's reference or none. -/
theorem refAuthorized_started (context : ServiceExecutionContext τ) (id : String) (startedAt : τ) :
    RefAuthorized entry options
      (ServiceGateway.evidenceFor context options id startedAt .started) := by
  intro ref href
  have hpresent : keepPresent options.credentialRef = some ref := href
  unfold keepPresent at hpresent
  split at hpresent
  · exact .inl hpresent
  · cases hpresent

omit [Timestamp τ] in
/-- The reference a completion names is the caller's, or the first the effect asked for. -/
theorem refUpdate_authorized {w : World τ} (hfirst : FirstAuthorized entry options run w)
    {ref : String} (href : ServiceGateway.refUpdate options (w.refs run) = some ref) :
    options.credentialRef = some ref ∨ entry.resource.attribute "credentialRef" = some ref := by
  unfold ServiceGateway.refUpdate keepPresent at href
  split at href
  · next hpresent =>
    cases hoptions : options.credentialRef with
    | some given =>
      rw [hoptions] at href
      exact .inl href
    | none =>
      rw [hoptions] at href hpresent
      have hhead : (w.refs run).head? = some ref := href
      rcases hfirst hoptions ref hhead with rfl | hauthorized
      · rw [hhead] at hpresent
        cases hpresent
      · exact .inr hauthorized
  · cases href

/-- Completing the row of the effect. -/
theorem keeps_completeEvidence (hrun : run ∈ mine) {updates : EvidenceCompletion τ}
    (hupdates : ∀ ref, updates.credentialRef = some ref →
      options.credentialRef = some ref ∨ entry.resource.attribute "credentialRef" = some ref)
    {w : World τ} (hw : InEffect mine entry options w₀ run w) :
    (ServiceGateway.completeEvidence run updates).Keeps (turns mine rule)
      (Made mine gateway entry options w₀) w
      (fun _ w' => InEffect mine entry options w₀ run w') := by
  unfold ServiceGateway.completeEvidence
  refine Task.Keeps.bind (Task.keeps_ofExcept _ w) ?_ (fun e w' h => by
    obtain ⟨-, rfl⟩ := h
    exact hw)
  rintro _ w₁ ⟨-, rfl⟩
  refine Task.Keeps.bind (Q := fun r w' => InEffect mine entry options w₀ run w' ∧
    ∀ current, r = .ok current → ∃ row, current = some row ∧ RefAuthorized entry options row)
    ?_ ?_ (fun _ _ h => h.1)
  · refine Task.keeps_perform ?_
    rintro w₂ rfl
    refine ⟨⟨Confined.of_none rfl, hw.rows⟩, ?_⟩
    intro res w₃ hanswer
    refine ⟨hw.aside hrun (answers_plain hanswer ⟨rfl, fun run ref h => by cases h⟩), ?_⟩
    rintro current rfl
    obtain ⟨choice, w₄, w₅, hbefore, hexec, -⟩ := turns_executes hanswer
    obtain ⟨row, hrow, hauthorized⟩ := hw.row
    rcases stored_cases hexec with ⟨hres, -⟩ | ⟨message, hres, -⟩
    · obtain rfl := Except.ok.inj hres
      exact ⟨row, (hbefore.evidence run hrun).trans hrow, hauthorized⟩
    · cases hres
  rintro current w₂ ⟨hw₂, hcurrent⟩
  obtain ⟨row, rfl, hrow⟩ := hcurrent current rfl
  have hcompleted : RefAuthorized entry options (row.complete updates) := by
    intro ref href
    have hmerged : (updates.credentialRef <|> row.credentialRef) = some ref := href
    cases hnew : updates.credentialRef with
    | some new =>
      rw [hnew] at hmerged
      exact hupdates ref (hnew.trans hmerged)
    | none =>
      rw [hnew] at hmerged
      exact hrow ref hmerged
  refine Task.keeps_perform ?_
  rintro w₃ rfl
  refine ⟨⟨Confined.of_none rfl, hw₂.rows⟩, ?_⟩
  intro res w₄ hanswer
  obtain ⟨hrows, hrefs, hgets⟩ := writes_authorized
    (fun choice w₁ res w₂ hexec => exec_completes hexec) (fun run ref h => by cases h)
    hcompleted hanswer hw₂.rows
  refine ⟨hrows, ?_, fun hnone ref href => ?_⟩
  · rcases hgets run hrun with heq | heq
    · obtain ⟨row', hrow', hauthorized⟩ := hw₂.row
      exact ⟨row', heq.trans hrow', hauthorized⟩
    · exact ⟨_, heq, hcompleted⟩
  · rw [hrefs run hrun] at href
    exact hw₂.first hnone ref href

/-- What follows the effect: the references it asked for, the time, and its completion. -/
theorem keeps_completion (hrun : run ∈ mine)
    {updates : List String → τ → EvidenceCompletion τ}
    (hupdates : ∀ refs t, (updates refs t).credentialRef = ServiceGateway.refUpdate options refs)
    {f : Svc τ Unit → Svc τ α} {w : World τ}
    (hf : ∀ t w, t.Keeps (turns mine rule) (Made mine gateway entry options w₀) w
        (fun _ w' => InEffect mine entry options w₀ run w') →
      (f t).Keeps (turns mine rule) (Made mine gateway entry options w₀) w
        (fun _ w' => InEffect mine entry options w₀ run w'))
    (hw : InEffect mine entry options w₀ run w) :
    (do
      let refs : List String ← (AuthorityOp.resolvedRefs run).perform
      let completedAt ← now
      f (ServiceGateway.completeEvidence run (updates refs completedAt)) : Svc τ α).Keeps
      (turns mine rule) (Made mine gateway entry options w₀) w
      (fun _ w' => InEffect mine entry options w₀ run w') := by
  refine Task.Keeps.bind (Q := fun r w' => r = .ok (w.refs run) ∧ w' = w) ?_ ?_
    (fun e w' h => by cases h.1)
  · refine Task.keeps_perform ?_
    rintro w₁ rfl
    refine ⟨⟨Confined.of_none rfl, hw.rows⟩, ?_⟩
    rintro res w₂ ⟨-, -, choice, hexec⟩
    exact computed_ok hexec
  rintro refs w₁ ⟨hrefs, rfl⟩
  obtain rfl := Except.ok.inj hrefs
  refine Task.Keeps.bind (keeps_now hw.rows) ?_ (fun e w' h => by cases h.1)
  rintro completedAt w₂ ⟨-, rfl⟩
  refine hf _ _ (keeps_completeEvidence hrun ?_ hw)
  intro ref href
  rw [hupdates] at href
  exact refUpdate_authorized hw.first href

/-- Before the effect: the rows, and nothing asked for under the ids yet to be drawn. -/
structure Unasked (mine : Set String) (entry : EffectEntry τ) (options : ExecuteOptions)
    (w₀ w : World τ) : Prop where
  rows : RowsAuthorized mine entry options w₀ w
  refs : ∀ id ∈ mine, w.refs id = []

omit [Timestamp τ] in
theorem unasked_lasting : Lasting mine entry options w₀ (Unasked mine entry options w₀) where
  aside ha h := ⟨h.rows.aside ha, fun id hid => (ha.refs id hid).trans (h.refs id hid)⟩
  rows h := h.rows

/-- The effect and the completion of its row. -/
theorem keeps_perform_effect (hrule : ∀ op w w', rule op w w' → StatusInTime op w w')
    (hrun : run ∈ mine) (hgrants : entry.Grants gateway context)
    {effect : ServiceExecutionContext τ → EffectProgram}
    (hfirst : options.credentialRef = none → (effect context).AsksFirst (MayAskFirst entry))
    {w : World τ} (hw : InEffect mine entry options w₀ run w) :
    (ServiceGateway.perform context options run
      (fun context tools => (effect context).perform gateway tools)).Keeps (turns mine rule)
      (Made mine gateway entry options w₀) w
      (fun _ w' => InEffect mine entry options w₀ run w') := by
  unfold ServiceGateway.perform
  have heffect := keeps_program options.provider hrule hrun hgrants (effect context) w hw
    (fun hnone _ => hfirst hnone)
  refine Task.Keeps.tryCatch (Q := fun _ w' => InEffect mine entry options w₀ run w') ?_
    (fun _ _ h => h) ?_
  · refine Task.Keeps.bind heffect ?_ (fun _ _ h => h.1)
    rintro result w₁ ⟨hw₁, -⟩
    refine keeps_completion hrun (fun _ _ => rfl) (f := fun t => t.bind fun _ => pure result) ?_ hw₁
    intro t w ht
    exact Task.Keeps.bind ht (fun _ _ h => h) (fun _ _ h => h)
  · -- the completion may throw as well as the effect, and the row is completed once more
    intro error w₁ hw₁
    refine keeps_completion hrun (fun _ _ => rfl)
      (f := fun t => t.ignore.bind fun _ => throw error) ?_ hw₁
    intro t w ht
    refine Task.Keeps.bind (Q := fun _ w' => InEffect mine entry options w₀ run w') ?_
      (fun _ _ h => h) (fun _ _ h => h)
    exact Task.Keeps.settleWith (fun _ _ h => h) ht

/-- `run`, whatever stood under the ids it draws. -/
theorem keeps_run (hrule : ∀ op w w', rule op w w' → StatusInTime op w w')
    (hgrants : entry.Grants gateway context) {effect : ServiceExecutionContext τ → EffectProgram}
    (hfirst : options.credentialRef = none → (effect context).AsksFirst (MayAskFirst entry))
    (startedAt : τ) {w : World τ} (hw : Unasked mine entry options w₀ w) :
    (ServiceGateway.run context options
      (fun context tools => (effect context).perform gateway tools) startedAt).Keeps (turns mine rule) (Made mine gateway entry options w₀) w
      (fun _ w' => RowsAuthorized mine entry options w₀ w') := by
  unfold ServiceGateway.run
  refine keeps_assert context hw.rows ?_ (fun _ => hw.rows)
  intro _ _
  refine Task.Keeps.bind (Q := fun r w' => Unasked mine entry options w₀ w' ∧
    ∀ id, r = .ok id → id ∈ mine) ?_ ?_ (fun _ _ h => h.1.rows)
  · refine Task.keeps_perform ?_
    rintro w₁ rfl
    refine ⟨⟨Confined.of_none rfl, hw.rows⟩, ?_⟩
    intro res w₂ hanswer
    refine ⟨unasked_lasting.aside (answers_plain hanswer ⟨rfl, fun run ref h => by cases h⟩) hw, ?_⟩
    rintro id rfl
    exact hanswer.1
  rintro id w₁ ⟨hw₁, hid⟩
  have hid := hid id rfl
  have hstarted : RefAuthorized entry options
      (ServiceGateway.evidenceFor context options id startedAt .started) :=
    refAuthorized_started context id startedAt
  refine Task.Keeps.bind (Q := fun r w' => RowsAuthorized mine entry options w₀ w' ∧
    (r = .ok () → InEffect mine entry options w₀ id w')) ?_ ?_ (fun _ _ h => h.1)
  · refine Task.keeps_perform ?_
    rintro w₂ rfl
    refine ⟨⟨Confined.of_none rfl, hw₁.rows⟩, ?_⟩
    intro res w₃ hanswer
    obtain ⟨hrows, hrefs, -⟩ := writes_authorized
      (fun choice w₁ res w₂ hexec => exec_records_or hexec) (fun run ref h => by cases h) hstarted
      hanswer hw₁.rows
    refine ⟨hrows, fun hok => ⟨hrows, ?_, fun _ ref href => ?_⟩⟩
    · subst hok
      obtain ⟨choice, w₄, w₅, -, hexec, hafter⟩ := turns_executes hanswer
      exact ⟨_, (hafter.evidence id hid).trans (exec_recordEvidence hexec), hstarted⟩
    · rw [hrefs id hid, hw₁.refs id hid] at href
      cases href
  · rintro _ w₂ ⟨-, hineffect⟩
    exact Task.Keeps.mono (fun _ _ h => h.rows)
      (keeps_perform_effect hrule hid hgrants hfirst (hineffect rfl))

/-- A refusal names no reference. -/
theorem keeps_recordRefusal (capability : String) (principal : PrincipalInput)
    (resource : ServiceResource) (requestId : String) (startedAt : τ) (error : JsError)
    {w : World τ} (hw : Unasked mine entry options w₀ w) :
    (gateway.recordRefusal capability principal resource options requestId startedAt error).Keeps
      (turns mine rule) (Made mine gateway entry options w₀) w
      (fun _ w' => RowsAuthorized mine entry options w₀ w') := by
  unfold ServiceGateway.recordRefusal
  split
  · split
    · exact hw.rows
    refine Task.Keeps.bind (keeps_consult _ _ unasked_lasting consults_randomUUID hw) ?_
      (fun _ _ h => h.rows)
    intro id w₁ hw₁
    refine Task.Keeps.bind (keeps_consult _ _ unasked_lasting consults_now hw₁) ?_ (fun _ _ h => h.rows)
    intro completedAt w₂ hw₂
    unfold Task.ignore
    refine Task.Keeps.settleWith (Q := fun _ w' => RowsAuthorized mine entry options w₀ w') ?_ ?_
    · intro r w' h
      exact h
    refine Task.keeps_perform ?_
    rintro w₃ rfl
    refine ⟨⟨Confined.of_none rfl, hw₂.rows⟩, ?_⟩
    intro res w₄ hanswer
    refine (writes_authorized (fun choice w₁ res w₂ hexec => exec_records_or hexec)
      (fun run ref h => by cases h) ?_ hanswer hw₂.rows).1
    intro ref href
    cases href
  · exact hw.rows

end tools

/-! ## The claim -/

/-- Custody is asked only for the credential of the effect, and the rows it leaves name no
other, while others run in between as `rule` says. -/
def CredentialsConfined (rule : AppOp τ → World τ → World τ → Prop) (gateway : ServiceGateway)
    (entry : EffectEntry τ) (options : ExecuteOptions)
    (effect : ServiceExecutionContext τ → EffectProgram) (mine : Set String) (w₀ : World τ) : Prop :=
  (entry.perform gateway options effect).Keeps (turns mine rule)
    (fun op w => Confined gateway entry op w ∧ RowsAuthorized mine entry options w₀ w) w₀
    (fun _ w => RowsAuthorized mine entry options w₀ w)

/-- **Credentials are confined.** Whatever an effect asks its tools for and whatever others
do while it waits: custody is asked only for the credential the effect was authorized for,
on behalf of its context and while that is live, and the rows the effect leaves name no
other credential. It is so if no context expires while custody is asked for a status under
its decision, and if the options name the reference, or the first reference the effect asks
for is the authorized one (or empty). -/
theorem credentials_are_confined (gateway : ServiceGateway) (entry : EffectEntry τ)
    (options : ExecuteOptions) (effect : ServiceExecutionContext τ → EffectProgram)
    (mine : Set String) (w₀ : World τ) (hunasked : ∀ id ∈ mine, w₀.refs id = [])
    (hfirst : options.credentialRef = none → ∀ context, entry.Grants gateway context →
      (effect context).AsksFirst (MayAskFirst entry)) :
    CredentialsConfined StatusInTime gateway entry options effect mine w₀ := by
  have hw₀ : Unasked mine entry options w₀ w₀ := ⟨fun id _ row hrow => .inl hrow, hunasked⟩
  cases entry with
  | run context =>
    unfold CredentialsConfined EffectEntry.perform
    refine Task.Keeps.bind (keeps_consult _ gateway unasked_lasting consults_now hw₀) ?_
      (fun _ _ h => h.rows)
    intro startedAt w₁ hw₁
    have hgrants : (EffectEntry.run context).Grants gateway context := rfl
    exact keeps_run (fun _ _ _ h => h) hgrants (fun hnone => hfirst hnone context hgrants) startedAt
      hw₁
  | execute capability principal resource =>
    unfold CredentialsConfined EffectEntry.perform ServiceGateway.execute
    refine Task.Keeps.bind (keeps_consult _ gateway unasked_lasting
      (ServiceGateway.consults_requestIdOf options) hw₀) ?_ (fun _ _ h => h.rows)
    intro requestId w₁ hw₁
    refine Task.Keeps.bind (keeps_consult _ _ unasked_lasting consults_now hw₁) ?_ (fun _ _ h => h.rows)
    intro startedAt w₂ hw₂
    have hauthorize := Task.Keeps.and_ensures
      (keeps_consult StatusInTime gateway unasked_lasting
        (gateway.consults_authorize capability principal resource requestId) hw₂)
      (ensures_authorize turns_byExecution gateway capability principal resource requestId w₂)
    refine Task.Keeps.bind (Q := fun r w' =>
      RowsAuthorized mine (.execute capability principal resource) options w₀ w' ∧
      ∀ context, r = .ok context → Unasked mine (.execute capability principal resource) options w₀ w' ∧
        IssuedOn gateway capability principal resource context) ?_ ?_ (fun _ _ h => h.1)
    · refine Task.Keeps.tryCatch hauthorize ?_ ?_
      · rintro context w₃ ⟨hw₃, hissued⟩
        refine ⟨hw₃.rows, fun context' h => ?_⟩
        obtain rfl := Except.ok.inj h
        exact ⟨hw₃, hissued context rfl⟩
      · rintro error w₃ ⟨hw₃, -⟩
        have hnone : ∀ {w' : World τ},
            RowsAuthorized mine (.execute capability principal resource) options w₀ w' →
            RowsAuthorized mine (.execute capability principal resource) options w₀ w' ∧
            ∀ context, (Except.error error : Except JsError (ServiceExecutionContext τ)) = .ok context →
              Unasked mine (.execute capability principal resource) options w₀ w' ∧
              IssuedOn gateway capability principal resource context :=
          fun h => ⟨h, fun context h => by cases h⟩
        refine Task.Keeps.bind (keeps_recordRefusal capability principal resource requestId startedAt
          error hw₃) ?_ ?_
        · intro _ w₄ h
          exact hnone h
        · intro e w₄ h
          exact ⟨h, fun context h => by cases h⟩
    · rintro context w₃ ⟨-, hcontext⟩
      obtain ⟨hw₃, hissued⟩ := hcontext context rfl
      have hgrants : (EffectEntry.execute capability principal resource).Grants gateway context :=
        hissued
      exact keeps_run (fun _ _ _ h => h) hgrants (fun hnone => hfirst hnone context hgrants)
        startedAt hw₃

/-! ## One way to go -/

/-- A call that goes through as `choice` says, after which the clock shows another time if
the call was awaited. -/
def execTimed (op : AppOp τ) (choice : Choice × τ) (w : World τ) :
    Option (Except JsError (op.Out τ) × World τ) :=
  match op.exec choice.1 w with
  | some (res, w') => some (res, if op.awaited then { w' with clock := choice.2 } else w')
  | none => none

omit [Timestamp τ] in
theorem drawsFrom_univ {op : AppOp τ} (res : Except JsError (op.Out τ)) :
    DrawsFrom Set.univ op res := by
  unfold DrawsFrom
  split
  · trivial
  · trivial

theorem execTimed_answers (op : AppOp τ) (choice : Choice × τ) (w : World τ)
    (res : Except JsError (op.Out τ)) (w' : World τ) (h : execTimed op choice w = some (res, w')) :
    (turns Set.univ fun _ _ _ => True).answers op w res w' := by
  unfold execTimed at h
  cases hexec : op.exec choice.1 w with
  | none =>
    rw [hexec] at h
    cases h
  | some r =>
    rw [hexec] at h
    cases h
    refine ⟨drawsFrom_univ _, trivial, choice.1, ?_⟩
    by_cases hawaited : op.awaited = true
    · rw [if_pos hawaited, if_pos hawaited]
      exact ⟨w, r.2, Aside.refl _ w, hexec, fun _ _ => rfl, fun _ _ => rfl⟩
    · rw [if_neg hawaited, if_neg hawaited]
      exact hexec

/-- A gateway whose custody can store. -/
def vault : ServiceGateway :=
  { application := "app", authorizer := true, credentials := true, storesCredentials := true }

/-- A context issued for one credential. -/
def signingContext : ServiceExecutionContext Nat where
  application := "app"
  tenantId := "acme"
  principal := mintedPrincipal
    { principalId := "signer", principalType := "user", tenantId := "acme" } .host 0
  capability := "credential.store"
  capabilityVersion := 1
  requestId := "r1"
  resource := { type := "credential", tenantId := "acme"
                attributes := [("credentialRef", "credential-ref:signing")] }
  resourceUri := "appport://app/tenants/acme/credential/*"
  authorization := { decisionId := "d1", decidedAt := 0, policyVersion := none, reason := none }
  expiresAt := 60000
  ref := 1

def signingWorld : World Nat := { clock := 0, nextRef := 2, issued := [signingContext] }

def signingEntry : EffectEntry Nat := .run signingContext

def signingOptions : ExecuteOptions := { service := "configuration" }

/-- Asks for the status of a credential, and carries on whatever the answer. -/
def statusOf (ref : String) (_ : ServiceExecutionContext Nat) : EffectProgram :=
  .credentialStatus ref {} fun _ => .settled (.ok .null)

/-- Stores the signing credential. -/
def storesSigning (_ : ServiceExecutionContext Nat) : EffectProgram :=
  .storeCredential "credential-ref:signing" "secret" { purpose := "credential.store" } fun _ =>
    .settled (.ok .null)

/-- The effect begins at once. -/
def begins : List (Choice × Nat) :=
  [(.proceed, 0), (.proceed, 0), (.proceed, 0), (.draw "row", 0), (.proceed, 0)]

/-- The effect was refused the credential of another and completes. -/
def statusOfAnother : List (Choice × Nat) :=
  begins ++ [(.proceed, 0), (.proceed, 0), (.proceed, 0), (.proceed, 0), (.proceed, 0),
    (.proceed, 0), (.proceed, 0)]

/-- Custody says that it can store, long after the context expired. -/
def storedLate : List (Choice × Nat) :=
  begins ++ [(.proceed, 0), (.proceed, 0), (.proceed, 0),
    (.secret (.resolved (.obj [("state", .str "missing"), ("writable", .bool true)])), 90000)]

/-- The effect completes once custody has answered. -/
def statusOfOwn : List (Choice × Nat) :=
  begins ++ [(.proceed, 0), (.proceed, 0), (.proceed, 0),
    (.secret (.resolved (.obj [("state", .str "set"), ("writable", .bool true)])), 10),
    (.proceed, 10), (.proceed, 10), (.proceed, 10), (.proceed, 10)]

/-- The settled effect left a row that names this reference. -/
def leftNaming (ref : String) : Option (Svc Nat JsValue × World Nat) → Bool
  | some (.settled _, w) =>
    match w.evidence.get "row" with
    | some row => row.credentialRef == some ref
    | none => false
  | _ => false

/-- The next call asks custody, and the context of signing has expired. -/
def asksLate : Option (Svc Nat JsValue × World Nat) → Bool
  | some (.await op _, w) => op.custodyRequest?.isSome && decide (signingContext.expiresAt ≤ w.clock)
  | _ => false

/-- Left to themselves, one effect names a credential it was refused, and another stores
its credential after its context expired. -/
theorem credentials_are_confined_fails :
    ¬ CredentialsConfined (fun _ _ _ => True) vault signingEntry signingOptions
      (statusOf "credential-ref:other") Set.univ signingWorld ∧
    ¬ CredentialsConfined (fun _ _ _ => True) vault signingEntry signingOptions storesSigning
      Set.univ signingWorld := by
  constructor
  · intro hconfined
    have htest : leftNaming "credential-ref:other" (Task.after execTimed statusOfAnother
        (signingEntry.perform vault signingOptions (statusOf "credential-ref:other"))
        signingWorld) = true := by
      decide +kernel
    unfold leftNaming at htest
    split at htest
    · next r w hafter =>
      have hrows : RowsAuthorized Set.univ signingEntry signingOptions signingWorld w :=
        Task.Keeps.after execTimed_answers (fun _ => rfl) _ hconfined hafter
      split at htest
      · next row hrow =>
        have hnamed : row.credentialRef = some "credential-ref:other" := by simpa using htest
        rcases hrows "row" trivial row hrow with hbefore | hauthorized
        · cases hbefore
        · rcases hauthorized _ hnamed with h | h
          · cases h
          · revert h
            decide
      · cases htest
    · cases htest
  · intro hconfined
    have htest : asksLate (Task.after execTimed storedLate
        (signingEntry.perform vault signingOptions storesSigning) signingWorld) = true := by
      decide +kernel
    unfold asksLate at htest
    split at htest
    · next op k w hafter =>
      simp only [Bool.and_eq_true, decide_eq_true_eq] at htest
      obtain ⟨hasks, hlate⟩ := htest
      obtain ⟨request, hrequest⟩ := Option.isSome_iff_exists.mp hasks
      have hkeeps := Task.Keeps.after execTimed_answers (fun _ => rfl) _ hconfined hafter
      obtain ⟨⟨hcall, -⟩, -⟩ := hkeeps w rfl
      obtain ⟨context, rfl, -, hlive⟩ := hcall request hrequest
      have hbefore : (w.clock : Int) < (signingContext.expiresAt : Int) := hlive
      omega
    · cases htest

/-- An effect that asks for its own credential: it is answered, and its row names it. -/
theorem credentials_are_confined_signing :
    CredentialsConfined StatusInTime vault signingEntry signingOptions
      (statusOf "credential-ref:signing") Set.univ signingWorld ∧
    leftNaming "credential-ref:signing" (Task.after execTimed statusOfOwn
      (signingEntry.perform vault signingOptions (statusOf "credential-ref:signing"))
      signingWorld) = true := by
  constructor
  · refine credentials_are_confined vault signingEntry signingOptions
      (statusOf "credential-ref:signing") Set.univ signingWorld (fun _ _ => rfl) ?_
    intro _ context _
    have hnamed : signingEntry.resource.attribute "credentialRef" = some "credential-ref:signing" := by
      decide
    exact .inr hnamed
  · decide +kernel

end AppPort
