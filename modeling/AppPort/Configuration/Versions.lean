import AppPort.Configuration.Service
import AppPort.Lib.Discipline

/-!
# The records of stored credentials

Any number of calls record versions that custody has assigned: for any tenants and
secrets, in any order. A head record is found or created, overwritten, what is active is
retired, and the version is inserted, in writes of their own that nothing fences. A process
is known by the stage it has reached, and `inOrder` says of each write what it has to meet
so that one head record, one active version and one trail of events come of it.
-/

namespace AppPort

open Effects Effects.Platform FeltDbSecretMetadataStore

variable {τ : Type}

/-! ## The platform -/

section platform

variable [Timestamp τ]

/-- Whatever else happens changes other stores. -/
def metadataEnv (f : World τ → World τ) (w : World τ) : Option (World τ) :=
  some { f w with secretMetadata := w.secretMetadata }

abbrev metadataPlatform (τ : Type) [Timestamp τ] : Platform :=
  appPlatform (recordStored (τ := τ)) metadataEnv

end platform

/-! ## Stages -/

/-- How far a call has come. -/
inductive Stage where
  | started
  /-- It found no head record. -/
  | missing
  | found (existing : Secret)
  /-- It has overwritten the head record. -/
  | advanced (head : String)
  /-- The versions left to retire, none where it created the head record. -/
  | retiring (head : String) (first : Bool) (left : List SecretVersion)
  /-- Its version is there. -/
  | recorded (head : String) (first : Bool) (version : String)
  /-- And its event. -/
  | told (head : String) (first : Bool) (version : String)
  | failed

namespace Stage

/-- The head record it has written. -/
def head? : Stage → Option String
  | .advanced head | .retiring head _ _ | .recorded head _ _ | .told head _ _ => some head
  | _ => none

/-- It has created the head record. -/
def first : Stage → Bool
  | .retiring _ first _ | .recorded _ first _ | .told _ first _ => first
  | _ => false

/-- It has read the active versions of a head record it found. -/
def listed : Stage → Bool
  | .retiring _ first _ | .recorded _ first _ | .told _ first _ => !first
  | _ => false

/-- What it has yet to retire. -/
def left : Stage → List SecretVersion
  | .retiring _ _ left => left
  | _ => []

/-- It has told of it. -/
def isTold : Stage → Bool
  | .told _ _ _ => true
  | _ => false

/-- The record of its version. -/
def version? : Stage → Option String
  | .recorded _ _ version | .told _ _ version => some version
  | _ => none

end Stage

/-- A process: what it records, and how far it has come. -/
structure Standing where
  input : SecretStoredRecord
  stage : Stage

section protocol

variable [Timestamp τ]

/-- **What an answered call makes of a stage.** -/
inductive StageNext (input : SecretStoredRecord) (step : (metadataPlatform τ).Step) :
    Stage → Stage → Prop where
  | draws {stage : Stage} : step.op = .authority .uuid →
    step.after.secretMetadata = step.before.secretMetadata → StageNext input step stage stage
  | fails {stage : Stage} : (∃ e, step.res = .error e) → StageNext input step stage .failed
  | misses : step.op = .secretMetadata (.findSecret input.tenantId input.secretId) →
    step.before.secretMetadata.heads input.tenantId input.secretId = [] →
    step.after.secretMetadata = step.before.secretMetadata →
    StageNext input step .started .missing
  | finds {existing : Secret} :
    step.op = .secretMetadata (.findSecret input.tenantId input.secretId) →
    existing ∈ step.before.secretMetadata.heads input.tenantId input.secretId →
    step.after.secretMetadata = step.before.secretMetadata →
    StageNext input step .started (.found existing)
  | creates {id : String} : step.op = .secretMetadata (.insertSecret (newHead id input)) →
    step.before.secretMetadata.secrets.get id = none →
    step.after.secretMetadata = { step.before.secretMetadata with
      secrets := step.before.secretMetadata.secrets.put id (newHead id input) } →
    StageNext input step .missing (.retiring id true [])
  | advances {existing : Secret} :
    step.op = .secretMetadata (.updateSecret existing.id (storedHead existing input)) →
    step.after.secretMetadata = { step.before.secretMetadata with
      secrets := step.before.secretMetadata.secrets.put existing.id (storedHead existing input) } →
    StageNext input step (.found existing) (.advanced existing.id)
  | lists {head : String} : step.op = .secretMetadata (.findActive head) →
    step.after.secretMetadata = step.before.secretMetadata →
    StageNext input step (.advanced head) (.retiring head false
      (step.before.secretMetadata.versions.find fun v => v.secretId == head && v.status == .active))
  | retires {head : String} {previous : SecretVersion} {rest : List SecretVersion} :
    step.op = .secretMetadata (.updateVersion previous.id { previous with status := .retired }) →
    step.after.secretMetadata = { step.before.secretMetadata with
      versions := step.before.secretMetadata.versions.put previous.id
        { previous with status := .retired } } →
    StageNext input step (.retiring head false (previous :: rest)) (.retiring head false rest)
  | records {head id : String} {first : Bool} :
    step.op = .secretMetadata (.insertVersion (newVersion id head input)) →
    step.before.secretMetadata.versions.get id = none →
    step.after.secretMetadata = { step.before.secretMetadata with
      versions := step.before.secretMetadata.versions.put id (newVersion id head input) } →
    StageNext input step (.retiring head first []) (.recorded head first id)
  | tells {head id version : String} {first : Bool} :
    step.op = .secretMetadata (.insertEvent (storedEvent id head first input)) →
    step.after.secretMetadata = { step.before.secretMetadata with
      audit := storedEvent id head first input :: step.before.secretMetadata.audit } →
    StageNext input step (.recorded head first version) (.told head first version)

/-- **The protocol of one process.** -/
abbrev metadataProtocol (τ : Type) [Timestamp τ] : Discipline (metadataPlatform τ) where
  Phase := Standing
  start call := ⟨call, .started⟩
  next s step s' := step.call = s.input ∧ s'.input = s.input ∧
    (∀ err, step.res = .error err → s'.stage = .failed) ∧ StageNext s.input step s.stage s'.stage
  final call r s := s.input = call ∧ match r with
    | .ok _ => ∃ head first version, s.stage = .told head first version
    | .error _ => s.stage = .failed

end protocol

/-! ## Conformance -/

section conformance

variable [Timestamp τ] {input : SecretStoredRecord} {α : Type}

/-- A call of the metadata store does what it does to the tables, or it rejects. -/
theorem exec_secretMetadata {op : SecretMetadataOp} {choice : Choice} {w w' : World τ}
    {res : Except JsError op.Out}
    (h : (AppOp.secretMetadata op).exec choice w = some (res, w')) :
    (res = (op.exec w.secretMetadata).1 ∧ w'.secretMetadata = (op.exec w.secretMetadata).2) ∨
      ∃ e, res = .error e := by
  rcases stored_cases h with ⟨hres, rfl⟩ | ⟨message, hres, -⟩
  · exact .inl ⟨hres, rfl⟩
  · exact .inr ⟨_, hres⟩

/-- The task goes through from a stage and resolves with `Q` of its value and stage, or it
fails. -/
def Reaches (input : SecretStoredRecord) (t : Svc τ α) (stage : Stage) (Q : α → Stage → Prop) : Prop :=
  (metadataProtocol τ).Conforms input t ⟨input, stage⟩ (fun r s => s.input = input ∧
    match r with | .ok a => Q a s.stage | .error _ => s.stage = .failed)

namespace Reaches

variable {β : Type} {stage : Stage} {Q : α → Stage → Prop} {R : β → Stage → Prop}

theorem bind {t : Svc τ α} {f : α → Svc τ β} (ht : Reaches input t stage Q)
    (hf : ∀ a stage', Q a stage' → Reaches input (f a) stage' R) : Reaches input (t.bind f) stage R := by
  refine Discipline.Conforms.bind ht ?_ (fun e s hs => hs)
  rintro a ⟨input', stage'⟩ ⟨hinput, hq⟩
  obtain rfl : input' = input := hinput
  exact hf a stage' hq

theorem pure {a : α} (h : Q a stage) : Reaches (τ := τ) input (pure a) stage Q := ⟨rfl, h⟩

/-- A call of the metadata store: what its answer makes of the stage, and what comes next. -/
theorem perform {op : SecretMetadataOp} {f : op.Out → Svc τ β}
    (h : ∀ (step : (metadataPlatform τ).Step) (a : op.Out),
      step.op = .secretMetadata op → (op.exec step.before.secretMetadata).1 = .ok a →
      step.after.secretMetadata = (op.exec step.before.secretMetadata).2 →
      ∃ stage', StageNext input step stage stage' ∧ Reaches input (f a) stage' R) :
    Reaches input (op.perform.bind f) stage R := by
  intro choice before res after hexec
  rcases exec_secretMetadata hexec with ⟨hres, hafter⟩ | ⟨e, rfl⟩
  · cases hanswer : (op.exec before.secretMetadata).1 with
    | ok a =>
      obtain rfl := hres.trans hanswer
      obtain ⟨stage', hnext, hrest⟩ := h ⟨input, .secretMetadata op, .ok a, before, after⟩ a rfl
        hanswer hafter
      have hanswered : ∀ err, (Except.ok a : Except JsError op.Out) ≠ .error err :=
        fun _ herr => nomatch herr
      exact ⟨⟨input, stage'⟩, ⟨rfl, rfl, fun err herr => absurd herr (hanswered err), hnext⟩, hrest⟩
    | error e =>
      obtain rfl := hres.trans hanswer
      exact ⟨⟨input, .failed⟩, ⟨rfl, rfl, fun _ _ => rfl, .fails ⟨e, rfl⟩⟩, rfl, rfl⟩
  · exact ⟨⟨input, .failed⟩, ⟨rfl, rfl, fun _ _ => rfl, .fails ⟨e, rfl⟩⟩, rfl, rfl⟩

/-- A drawn id. -/
theorem uuid {f : String → Svc τ β} (h : ∀ id, Reaches input (f id) stage R) :
    Reaches input (randomUUID.bind f) stage R := by
  refine bind (Q := fun _ stage' => stage' = stage) ?_ ?_
  · intro choice before res after hexec
    obtain ⟨rfl, id, -, rfl⟩ := AuthorityOp.exec_uuid hexec
    have hanswered : ∀ err, (Except.ok id : Except JsError String) ≠ .error err :=
      fun _ herr => nomatch herr
    exact ⟨⟨input, stage⟩, ⟨rfl, rfl, fun err herr => absurd herr (hanswered err), .draws rfl rfl⟩,
      rfl, rfl⟩
  · rintro id stage' rfl
    exact h id

end Reaches

/-- What is active is retired, one after the other. -/
theorem reaches_retire (head : String) : (left : List SecretVersion) →
    Reaches (τ := τ) input (Task.forEach (fun previous =>
        (SecretMetadataOp.updateVersion previous.id { previous with status := .retired }).perform) left)
      (.retiring head false left) (fun _ stage => stage = .retiring head false [])
  | [] => Reaches.pure rfl
  | _ :: rest => Reaches.perform fun _ _ hop _ hafter =>
    ⟨_, .retires hop hafter, reaches_retire head rest⟩

theorem reaches_advanceHead (existing : Secret) :
    Reaches (τ := τ) input (advanceHead existing input) (.found existing)
      (fun secret stage => stage = .retiring secret.id false []) := by
  refine Reaches.perform fun _ _ hop _ hafter => ⟨_, .advances hop hafter, ?_⟩
  refine Reaches.perform fun _ active hop hres hafter => ⟨_, .lists hop hafter, ?_⟩
  obtain rfl := (Except.ok.inj hres).symm
  refine Reaches.bind (reaches_retire existing.id _) ?_
  rintro _ stage rfl
  exact Reaches.pure rfl

/-- A record is inserted where there is none of its id. -/
theorem of_insertSecret {db : SecretMetadataTables} {secret : Secret} {u : Unit}
    (hres : ((SecretMetadataOp.insertSecret secret).exec db).1 = .ok u) :
    db.secrets.get secret.id = none ∧ ((SecretMetadataOp.insertSecret secret).exec db).2 =
      { db with secrets := db.secrets.put secret.id secret } := by
  simp only [SecretMetadataOp.exec] at hres ⊢
  split at hres
  · next secrets hinsert =>
    obtain ⟨hnone, rfl⟩ := Table.insertAbsent_eq_some hinsert
    exact ⟨hnone, rfl⟩
  · cases hres

theorem of_insertVersion {db : SecretMetadataTables} {version : SecretVersion} {u : Unit}
    (hres : ((SecretMetadataOp.insertVersion version).exec db).1 = .ok u) :
    db.versions.get version.id = none ∧ ((SecretMetadataOp.insertVersion version).exec db).2 =
      { db with versions := db.versions.put version.id version } := by
  simp only [SecretMetadataOp.exec] at hres ⊢
  split at hres
  · next versions hinsert =>
    obtain ⟨hnone, rfl⟩ := Table.insertAbsent_eq_some hinsert
    exact ⟨hnone, rfl⟩
  · cases hres

theorem reaches_createHead :
    Reaches (τ := τ) input (createHead input) .missing
      (fun secret stage => stage = .retiring secret.id true []) := by
  refine Reaches.uuid fun id => ?_
  refine Reaches.perform fun _ _ hop hres hafter => ?_
  obtain ⟨hnone, hput⟩ := of_insertSecret hres
  exact ⟨_, .creates hop hnone (hafter.trans hput), Reaches.pure rfl⟩

/-- The version and its event, behind the head record. -/
theorem reaches_recordStored (input : SecretStoredRecord) :
    Reaches (τ := τ) input (recordStored input) .started
      (fun _ stage => ∃ head first version, stage = .told head first version) := by
  have hrest : ∀ (head : String) (first : Bool) (r : Bool), Reaches (τ := τ) input
      (randomUUID.bind fun versionId =>
        (SecretMetadataOp.insertVersion (newVersion versionId head input)).perform.bind fun _ =>
          randomUUID.bind fun eventId =>
            (SecretMetadataOp.insertEvent (storedEvent eventId head first input)).perform.bind
              fun _ => pure r) (.retiring head first [])
      (fun _ stage => ∃ head first version, stage = .told head first version) := by
    intro head first r
    refine Reaches.uuid fun versionId => ?_
    refine Reaches.perform fun _ _ hop hres hafter => ?_
    obtain ⟨hnone, hput⟩ := of_insertVersion hres
    refine ⟨_, .records hop hnone (hafter.trans hput), ?_⟩
    refine Reaches.uuid fun eventId => ?_
    exact Reaches.perform fun _ _ hop _ hafter =>
      ⟨_, .tells hop hafter, Reaches.pure ⟨head, first, versionId, rfl⟩⟩
  refine Reaches.perform fun step existing hop hres hafter => ?_
  have hfound : (step.before.secretMetadata.heads input.tenantId input.secretId).head? = existing :=
    Except.ok.inj hres
  cases existing with
  | none =>
    refine ⟨_, .misses hop (List.head?_eq_none_iff.mp hfound) hafter, ?_⟩
    refine Reaches.bind reaches_createHead ?_
    rintro secret stage rfl
    exact hrest secret.id true true
  | some existing =>
    refine ⟨_, .finds hop (List.mem_of_head? hfound) hafter, ?_⟩
    refine Reaches.bind (reaches_advanceHead existing) ?_
    rintro secret stage rfl
    exact hrest secret.id false false

theorem metadata_obeyed : (metadataProtocol τ).Obeyed := by
  intro input
  refine Discipline.Conforms.mono ?_ (reaches_recordStored (τ := τ) input)
  intro r s h
  cases r with
  | ok a => exact h
  | error e => exact h

end conformance

/-! ## What the writes have to meet -/

/-- A read of the head record of a secret. -/
def AppOp.readsName (tenantId name : String) : AppOp τ → Bool
  | .secretMetadata (.findSecret tenantId' name') => tenantId' == tenantId && name' == name
  | _ => false

/-- A read of the active versions of a head record. -/
def AppOp.listsHead (head : String) : AppOp τ → Bool
  | .secretMetadata (.findActive head') => head' == head
  | _ => false

section order

variable [Timestamp τ]

/-- **The order that calls of one secret have to keep.** -/
def inOrder (past : (metadataPlatform τ).History) : (metadataPlatform τ).Event → Bool
  | .stopped _ _ => true
  | .ran _ step =>
    match step.op with
    -- where there is no head record yet, this is the first call of the secret
    | .secretMetadata (.findSecret tenantId name) =>
      !(step.before.secretMetadata.heads tenantId name).isEmpty || past.all fun e =>
        match e with
        | .ran _ other => !other.op.readsName tenantId name
        | .stopped _ _ => true
    -- a head record is overwritten by a higher version
    | .secretMetadata (.updateSecret id secret) =>
      (step.before.secretMetadata.secrets.get id).all fun head =>
        decide (head.currentVersion < secret.currentVersion)
    -- what is retired is lower
    | .secretMetadata (.findActive head) =>
      (step.before.secretMetadata.versionsOf head).all fun v => decide (v.version < step.call.version)
    -- and no higher version has retired what it found before
    | .secretMetadata (.insertVersion version) => past.all fun e =>
        match e with
        | .ran _ other =>
          !other.op.listsHead version.secretId || decide (other.call.version ≤ version.version)
        | .stopped _ _ => true
    -- the first event is that of the creation
    | .secretMetadata (.insertEvent event) =>
      event.type != "secret.rotated" || step.before.secretMetadata.audit.any fun e =>
        e.secretId == event.secretId && e.type == "secret.created"
    | _ => true

/-- A step that was in order and did not fail. -/
def Clean (past : (metadataPlatform τ).History) (e : (metadataPlatform τ).Event) : Prop :=
  inOrder past e = true ∧ ∃ pid step, e = .ran pid step ∧ ∀ err, step.res ≠ .error err

end order

/-! ## Head records -/

/-- The head record of a secret. -/
def Secret.IsOf (head : Secret) (input : SecretStoredRecord) : Prop :=
  head.tenantId = input.tenantId ∧ head.name = input.secretId

/-- Calls of one secret. -/
def SameSecret (input other : SecretStoredRecord) : Prop :=
  input.tenantId = other.tenantId ∧ input.secretId = other.secretId

section heads

variable [Timestamp τ]

/-- Of each secret there is one head record, and who found none is alone. -/
structure HeadsKept (db : SecretMetadataTables) (past : (metadataPlatform τ).History)
    (phases : Nat → Option Standing) : Prop where
  keys : db.secrets.keys.Nodup
  id : ∀ {id head}, db.secrets.get id = some head → head.id = id
  one : ∀ {id id' head head'}, db.secrets.get id = some head → db.secrets.get id' = some head' →
    head.tenantId = head'.tenantId → head.name = head'.name → id = id'
  found : ∀ {p input existing}, phases p = some ⟨input, .found existing⟩ → existing.IsOf input ∧
    ∃ head, db.secrets.get existing.id = some head ∧ head.IsOf input
  missing : ∀ {p input}, phases p = some ⟨input, .missing⟩ →
    ∀ id head, db.secrets.get id = some head → ¬ head.IsOf input
  alone : ∀ {p input q other stage}, phases p = some ⟨input, .missing⟩ → q ≠ p →
    phases q = some ⟨other, stage⟩ → SameSecret other input → stage = .started
  wrote : ∀ {p input stage id}, phases p = some ⟨input, stage⟩ → stage.head? = some id →
    ∃ head, db.secrets.get id = some head ∧ head.IsOf input
  read : ∀ {p input stage}, phases p = some ⟨input, stage⟩ → stage ≠ .started →
    ∃ q step, .ran q step ∈ past ∧ step.op.readsName input.tenantId input.secretId = true

theorem standing_cases {phases : Nat → Option Standing} {pid q : Nat} {s s' : Standing}
    (h : Discipline.Phases.move (D := metadataProtocol τ) phases pid (some s') q = some s) :
    (q = pid ∧ s' = s) ∨ (q ≠ pid ∧ phases q = some s) := by
  by_cases hq : q = pid
  · subst hq
    rw [Discipline.Phases.move_same] at h
    exact .inl ⟨rfl, Option.some.inj h⟩
  · rw [Discipline.Phases.move_other _ _ hq] at h
    exact .inr ⟨hq, h⟩

variable {past : (metadataPlatform τ).History} {e : (metadataPlatform τ).Event}
  {phases : Nat → Option Standing} {pid : Nat} {input : SecretStoredRecord} {stage stage' : Stage}
  {db db' : SecretMetadataTables}

/-- The map with the process `pid` at another stage. -/
abbrev moved (τ : Type) [Timestamp τ] (phases : Nat → Option Standing) (pid : Nat)
    (input : SecretStoredRecord) (stage : Stage) : Nat → Option Standing :=
  Discipline.Phases.move (D := metadataProtocol τ) phases pid (some ⟨input, stage⟩)

namespace HeadsKept

/-- What a step behind the head record leaves of it. -/
theorem keep (h : HeadsKept db past phases) (hsecrets : db'.secrets = db.secrets)
    (hpid : phases pid = some ⟨input, stage⟩)
    (hstage : stage' = stage ∨ stage'.head? = stage.head? ∧ stage.head? ≠ none) :
    HeadsKept db' (e :: past) (moved τ phases pid input stage') := by
  have hhead : stage'.head? = stage.head? := by
    rcases hstage with rfl | ⟨hhead, -⟩
    · rfl
    · exact hhead
  -- who stands before its head record stood there
  have hbefore : ∀ {q s}, moved τ phases pid input stage' q = some s →
      phases q = some s ∨ q = pid ∧ s = ⟨input, stage'⟩ ∧ stage'.head? ≠ none := by
    intro q s hq
    rcases standing_cases hq with ⟨rfl, rfl⟩ | ⟨-, hq⟩
    · rcases hstage with rfl | ⟨hhead, hsome⟩
      · exact .inl hpid
      · exact .inr ⟨rfl, rfl, hhead ▸ hsome⟩
    · exact .inl hq
  constructor
  · exact hsecrets ▸ h.keys
  · exact hsecrets ▸ h.id
  · exact hsecrets ▸ h.one
  · intro p other existing hp
    rw [hsecrets]
    rcases hbefore hp with hp | ⟨-, heq, hsome⟩
    · exact h.found hp
    · rw [← (Standing.mk.inj heq).2] at hsome
      exact absurd rfl hsome
  · intro p other hp
    rw [hsecrets]
    rcases hbefore hp with hp | ⟨-, heq, hsome⟩
    · exact h.missing hp
    · rw [← (Standing.mk.inj heq).2] at hsome
      exact absurd rfl hsome
  · intro p other q third st hp hne hq hsame
    rcases hbefore hp with hstood | ⟨-, heq, hsome⟩
    · rcases hbefore hq with hother | ⟨rfl, heq, hsome⟩
      · exact h.alone hstood hne hother hsame
      · obtain ⟨rfl, rfl⟩ := Standing.mk.inj heq
        have hstarted := h.alone hstood hne hpid hsame
        rw [hhead, hstarted] at hsome
        exact absurd rfl hsome
    · rw [← (Standing.mk.inj heq).2] at hsome
      exact absurd rfl hsome
  · intro p other st id hp hid
    rw [hsecrets]
    rcases hbefore hp with hp | ⟨-, heq, -⟩
    · exact h.wrote hp hid
    · obtain ⟨rfl, rfl⟩ := Standing.mk.inj heq
      exact h.wrote hpid (hhead ▸ hid)
  · intro p other st hp hst
    have hold : ∃ q step, .ran q step ∈ past ∧ step.op.readsName other.tenantId other.secretId = true := by
      rcases hbefore hp with hp | ⟨-, heq, hsome⟩
      · exact h.read hp hst
      · obtain ⟨rfl, rfl⟩ := Standing.mk.inj heq
        refine h.read hpid ?_
        rintro rfl
        exact hsome hhead
    obtain ⟨q, step, hmem, hreads⟩ := hold
    exact ⟨q, step, List.mem_cons_of_mem _ hmem, hreads⟩

/-- No head record is found: it is alone. -/
theorem miss (h : HeadsKept db past phases) (hpid : phases pid = some ⟨input, .started⟩)
    (hnone : db.heads input.tenantId input.secretId = [])
    (hfirst : ∀ q step, .ran q step ∈ past → step.op.readsName input.tenantId input.secretId = false)
    (hreads : ∃ q step, .ran q step ∈ e :: past ∧
      step.op.readsName input.tenantId input.secretId = true) :
    HeadsKept db (e :: past) (moved τ phases pid input .missing) := by
  have hunread : ∀ {q other st}, phases q = some ⟨other, st⟩ → SameSecret other input →
      st = .started := by
    intro q other st hq hsame
    by_contra hst
    obtain ⟨q', step, hmem, hread⟩ := h.read hq hst
    rw [hsame.1, hsame.2, hfirst q' step hmem] at hread
    cases hread
  constructor
  · exact h.keys
  · exact h.id
  · exact h.one
  · intro p other existing hp
    rcases standing_cases hp with ⟨-, heq⟩ | ⟨-, hp⟩
    · cases heq
    · exact h.found hp
  · intro p other hp
    rcases standing_cases hp with ⟨-, heq⟩ | ⟨-, hp⟩
    · obtain ⟨rfl, -⟩ := Standing.mk.inj heq
      intro id head hget hof
      have hmem : head ∈ db.heads input.tenantId input.secretId :=
        Table.mem_find.mpr ⟨⟨id, hget⟩, by simp [hof.1, hof.2]⟩
      rw [hnone] at hmem
      cases hmem
    · exact h.missing hp
  · intro p other q third st hp hne hq hsame
    rcases standing_cases hp with ⟨rfl, heq⟩ | ⟨-, hstood⟩
    · obtain ⟨rfl, -⟩ := Standing.mk.inj heq
      rcases standing_cases hq with ⟨heq', -⟩ | ⟨-, hq⟩
      · exact absurd heq' hne
      · exact hunread hq hsame
    · rcases standing_cases hq with ⟨-, heq⟩ | ⟨-, hother⟩
      · obtain ⟨rfl, -⟩ := Standing.mk.inj heq
        have hstarted := hunread hstood ⟨hsame.1.symm, hsame.2.symm⟩
        cases hstarted
      · exact h.alone hstood hne hother hsame
  · intro p other st id hp hid
    rcases standing_cases hp with ⟨-, heq⟩ | ⟨-, hp⟩
    · rw [← (Standing.mk.inj heq).2] at hid
      cases hid
    · exact h.wrote hp hid
  · intro p other st hp hst
    rcases standing_cases hp with ⟨-, heq⟩ | ⟨-, hp⟩
    · rw [← (Standing.mk.inj heq).1]
      exact hreads
    · obtain ⟨q, step, hmem, hread⟩ := h.read hp hst
      exact ⟨q, step, List.mem_cons_of_mem _ hmem, hread⟩

/-- A head record is found. -/
theorem find (h : HeadsKept db past phases) {existing : Secret} (hfound : existing ∈ db.heads input.tenantId input.secretId)
    (hreads : ∃ q step, .ran q step ∈ e :: past ∧
      step.op.readsName input.tenantId input.secretId = true) :
    HeadsKept db (e :: past) (moved τ phases pid input (.found existing)) := by
  obtain ⟨⟨id, hget⟩, hof⟩ := Table.mem_find.mp hfound
  have hof : existing.IsOf input := by simpa [Secret.IsOf] using hof
  have hid := h.id hget
  constructor
  · exact h.keys
  · exact h.id
  · exact h.one
  · intro p other existing' hp
    rcases standing_cases hp with ⟨-, heq⟩ | ⟨-, hp⟩
    · obtain ⟨rfl, hstage⟩ := Standing.mk.inj heq
      obtain rfl := Stage.found.inj hstage
      exact ⟨hof, existing, hid ▸ hget, hof⟩
    · exact h.found hp
  · intro p other hp
    rcases standing_cases hp with ⟨-, heq⟩ | ⟨-, hp⟩
    · cases heq
    · exact h.missing hp
  · intro p other q third st hp hne hq hsame
    rcases standing_cases hp with ⟨-, heq⟩ | ⟨-, hstood⟩
    · cases heq
    · rcases standing_cases hq with ⟨-, heq⟩ | ⟨-, hother⟩
      · obtain ⟨rfl, -⟩ := Standing.mk.inj heq
        exact absurd ⟨hof.1.trans hsame.1, hof.2.trans hsame.2⟩ (h.missing hstood id existing hget)
      · exact h.alone hstood hne hother hsame
  · intro p other st id' hp hid'
    rcases standing_cases hp with ⟨-, heq⟩ | ⟨-, hp⟩
    · rw [← (Standing.mk.inj heq).2] at hid'
      cases hid'
    · exact h.wrote hp hid'
  · intro p other st hp hst
    rcases standing_cases hp with ⟨-, heq⟩ | ⟨-, hp⟩
    · rw [← (Standing.mk.inj heq).1]
      exact hreads
    · obtain ⟨q, step, hmem, hread⟩ := h.read hp hst
      exact ⟨q, step, List.mem_cons_of_mem _ hmem, hread⟩

/-- A head record is written by a process that has none yet: created or overwritten. -/
theorem write (h : HeadsKept db past phases) (hpid : phases pid = some ⟨input, stage⟩)
    (id : String) (head : Secret) (hof : head.IsOf input) (hid : head.id = id)
    (hstage : stage = .missing ∧ db.secrets.get id = none ∨
      ∃ existing, stage = .found existing ∧ existing.id = id)
    (hwritten : stage'.head? = some id) (hsecrets : db'.secrets = db.secrets.put id head) :
    HeadsKept db' (e :: past) (moved τ phases pid input stage') := by
  -- whoever else is of the secret, the record under the id is, or there was none
  have hold : ∀ {old}, db.secrets.get id = some old → old.IsOf input := by
    intro old hget
    rcases hstage with ⟨-, hnone⟩ | ⟨existing, rfl, rfl⟩
    · rw [hnone] at hget
      cases hget
    · obtain ⟨-, head', hget', hof'⟩ := h.found hpid
      rw [hget] at hget'
      obtain rfl := Option.some.inj hget'
      exact hof'
  have hkept : ∀ {id' old other}, db.secrets.get id' = some old → old.IsOf other →
      ∃ new, db'.secrets.get id' = some new ∧ new.IsOf other := by
    intro id' old other hget hother
    rw [hsecrets, Table.get_put]
    split
    · next heq =>
      subst heq
      have hsame := hold hget
      exact ⟨head, rfl, hof.1.trans (hsame.1.symm.trans hother.1),
        hof.2.trans (hsame.2.symm.trans hother.2)⟩
    · exact ⟨old, hget, hother⟩
  have hget' : ∀ {id' new}, db'.secrets.get id' = some new →
      (id' = id ∧ new = head) ∨ id' ≠ id ∧ db.secrets.get id' = some new := by
    intro id' new hget
    rw [hsecrets, Table.get_put] at hget
    split at hget
    · next heq => exact .inl ⟨heq, (Option.some.inj hget).symm⟩
    · next hne => exact .inr ⟨hne, hget⟩
  have honly : ∀ {id' old}, db.secrets.get id' = some old → old.IsOf input → id' = id := by
    intro id' old hget hother
    rcases hstage with ⟨rfl, -⟩ | ⟨existing, rfl, rfl⟩
    · exact absurd hother (h.missing hpid _ _ hget)
    · obtain ⟨-, head', hget', hof'⟩ := h.found hpid
      exact h.one hget hget' (hother.1.trans hof'.1.symm) (hother.2.trans hof'.2.symm)
  have hstarted : stage ≠ .started := by
    rintro rfl
    rcases hstage with ⟨heq, -⟩ | ⟨existing, heq, -⟩ <;> cases heq
  constructor
  · rw [hsecrets]
    exact Table.nodup_put h.keys _ _
  · intro id' new hget
    rcases hget' hget with ⟨rfl, rfl⟩ | ⟨-, hget⟩
    · exact hid
    · exact h.id hget
  · intro id₁ id₂ new₁ new₂ hget₁ hget₂ htenant hname
    rcases hget' hget₁ with ⟨rfl, rfl⟩ | ⟨-, hget₁⟩
    · rcases hget' hget₂ with ⟨rfl, -⟩ | ⟨-, hget₂⟩
      · rfl
      · exact (honly hget₂ ⟨htenant.symm.trans hof.1, hname.symm.trans hof.2⟩).symm
    · rcases hget' hget₂ with ⟨rfl, rfl⟩ | ⟨-, hget₂⟩
      · exact honly hget₁ ⟨htenant.trans hof.1, hname.trans hof.2⟩
      · exact h.one hget₁ hget₂ htenant hname
  · intro p other existing hp
    rcases standing_cases hp with ⟨-, heq⟩ | ⟨-, hp⟩
    · rw [(Standing.mk.inj heq).2] at hwritten
      cases hwritten
    · obtain ⟨hother, old, hget, hofOld⟩ := h.found hp
      exact ⟨hother, hkept hget hofOld⟩
  · intro p other hp
    rcases standing_cases hp with ⟨-, heq⟩ | ⟨hne, hp⟩
    · rw [(Standing.mk.inj heq).2] at hwritten
      cases hwritten
    · intro id' new hget hother
      rcases hget' hget with ⟨rfl, rfl⟩ | ⟨-, hget⟩
      · -- it would be of the secret of the process that writes
        have hsame : SameSecret input other :=
          ⟨hof.1.symm.trans hother.1, hof.2.symm.trans hother.2⟩
        exact hstarted (h.alone hp (Ne.symm hne) hpid hsame)
      · exact h.missing hp id' new hget hother
  · intro p other q third st hp hne hq hsame
    rcases standing_cases hp with ⟨-, heq⟩ | ⟨hnep, hstood⟩
    · rw [(Standing.mk.inj heq).2] at hwritten
      cases hwritten
    · rcases standing_cases hq with ⟨-, heq⟩ | ⟨-, hother⟩
      · obtain ⟨rfl, -⟩ := Standing.mk.inj heq
        exact absurd (h.alone hstood (Ne.symm hnep) hpid hsame) hstarted
      · exact h.alone hstood hne hother hsame
  · intro p other st id' hp hid'
    rcases standing_cases hp with ⟨-, heq⟩ | ⟨-, hp⟩
    · obtain ⟨rfl, rfl⟩ := Standing.mk.inj heq
      obtain rfl := Option.some.inj (hwritten.symm.trans hid')
      exact ⟨head, by rw [hsecrets, Table.get_put_same], hof⟩
    · obtain ⟨old, hget, hother⟩ := h.wrote hp hid'
      exact hkept hget hother
  · intro p other st hp hst
    have hbefore : ∃ q step, .ran q step ∈ past ∧
        step.op.readsName other.tenantId other.secretId = true := by
      rcases standing_cases hp with ⟨-, heq⟩ | ⟨-, hp⟩
      · rw [← (Standing.mk.inj heq).1]
        exact h.read hpid hstarted
      · exact h.read hp hst
    obtain ⟨q, step, hmem, hread⟩ := hbefore
    exact ⟨q, step, List.mem_cons_of_mem _ hmem, hread⟩

/-- A call that starts has read nothing. -/
theorem start (h : HeadsKept db past phases) (input : SecretStoredRecord) :
    HeadsKept db past (moved τ phases pid input .started) := by
  constructor
  · exact h.keys
  · exact h.id
  · exact h.one
  · intro p other existing hp
    rcases standing_cases hp with ⟨-, heq⟩ | ⟨-, hp⟩
    · cases heq
    · exact h.found hp
  · intro p other hp
    rcases standing_cases hp with ⟨-, heq⟩ | ⟨-, hp⟩
    · cases heq
    · exact h.missing hp
  · intro p other q third st hp hne hq hsame
    rcases standing_cases hq with ⟨-, heq⟩ | ⟨-, hother⟩
    · exact (Standing.mk.inj heq).2.symm
    · rcases standing_cases hp with ⟨-, heq⟩ | ⟨-, hstood⟩
      · cases heq
      · exact h.alone hstood hne hother hsame
  · intro p other st id hp hid
    rcases standing_cases hp with ⟨-, heq⟩ | ⟨-, hp⟩
    · rw [← (Standing.mk.inj heq).2] at hid
      cases hid
    · exact h.wrote hp hid
  · intro p other st hp hst
    rcases standing_cases hp with ⟨-, heq⟩ | ⟨-, hp⟩
    · exact absurd (Standing.mk.inj heq).2.symm hst
    · exact h.read hp hst

theorem init (hdb : db = {}) : HeadsKept db ([] : (metadataPlatform τ).History) fun _ => none := by
  subst hdb
  constructor
  · exact List.nodup_nil
  all_goals intros; simp_all [Table.get_empty]

end HeadsKept

omit [Timestamp τ] in
theorem readsName_of_find {op : AppOp τ} {tenantId name : String}
    (h : op = .secretMetadata (.findSecret tenantId name)) : op.readsName tenantId name = true := by
  subst h
  simp [AppOp.readsName]

/-- In order, who finds no head record is the first of its secret. -/
theorem first_of_inOrder {step : (metadataPlatform τ).Step} {tenantId name : String}
    (horder : inOrder past (.ran pid step) = true)
    (hop : step.op = .secretMetadata (.findSecret tenantId name))
    (hnone : step.before.secretMetadata.heads tenantId name = []) :
    ∀ q other, .ran q other ∈ past → other.op.readsName tenantId name = false := by
  intro q other hmem
  simp only [inOrder, hop, hnone, List.isEmpty_nil, Bool.not_true, Bool.false_or, List.all_eq_true]
    at horder
  simpa using horder _ hmem

/-- **Of each secret there is one head record**, while calls keep their order. -/
theorem headsKept_inductive : (metadataProtocol τ).Inductive Clean
    (fun w past phases => HeadsKept w.secretMetadata past phases) where
  spawn := by
    rintro w past phases pid call - h - - -
    exact h.start call
  step := by
    rintro past phases pid ⟨input, stage⟩ ⟨input', stage'⟩ step choice - h hpid - hnext hclean
    obtain ⟨-, hinput, -, hnext⟩ := hnext
    obtain rfl : input' = input := hinput
    obtain ⟨horder, pid', step', heq, hok⟩ := hclean
    obtain ⟨rfl, rfl⟩ := Event.ran.inj heq
    cases hnext with
    | draws hop hafter =>
      rw [hafter]
      exact h.keep rfl hpid (.inl rfl)
    | fails herror =>
      obtain ⟨err, herr⟩ := herror
      exact absurd herr (hok err)
    | misses hop hnone hafter =>
      rw [hafter]
      refine h.miss hpid hnone (first_of_inOrder horder hop hnone) ⟨pid, step, List.mem_cons_self, ?_⟩
      exact readsName_of_find hop
    | finds hop hfound hafter =>
      rw [hafter]
      exact h.find hfound ⟨pid, step, List.mem_cons_self, readsName_of_find hop⟩
    | @creates id hop hnone hafter =>
      exact h.write hpid id (newHead id input') ⟨rfl, rfl⟩ rfl (.inl ⟨rfl, hnone⟩) rfl
        (congrArg SecretMetadataTables.secrets hafter)
    | @advances existing hop hafter =>
      obtain ⟨hof, -⟩ := h.found hpid
      exact h.write hpid existing.id (storedHead existing input') hof rfl (.inr ⟨existing, rfl, rfl⟩) rfl
        (congrArg SecretMetadataTables.secrets hafter)
    | lists hop hafter =>
      rw [hafter]
      exact h.keep rfl hpid (.inr ⟨rfl, nofun⟩)
    | retires hop hafter =>
      rw [hafter]
      exact h.keep rfl hpid (.inr ⟨rfl, nofun⟩)
    | records hop hnone hafter =>
      rw [hafter]
      exact h.keep rfl hpid (.inr ⟨rfl, nofun⟩)
    | tells hop hafter =>
      rw [hafter]
      exact h.keep rfl hpid (.inr ⟨rfl, nofun⟩)
  stop := by
    rintro w past phases pid ph call - h hpid ⟨-, pid', step, heq, -⟩
    cases heq
  env := by
    rintro w w' past phases move - h henv
    obtain rfl := Option.some.inj henv
    exact h

end heads

/-! ## The versions of head records -/

section writers

variable [Timestamp τ]

/-- The process works on a record and has come to such a stage. -/
def At (phases : Nat → Option Standing) (p : Nat) (input : SecretStoredRecord) (P : Stage → Prop) : Prop :=
  ∃ stage, phases p = some ⟨input, stage⟩ ∧ P stage

/-- It has written the head record, as the first of its secret or not. -/
def Writer (phases : Nat → Option Standing) (p : Nat) (input : SecretStoredRecord) (id : String)
    (first : Bool) : Prop :=
  At phases p input fun stage => stage.head? = some id ∧ stage.first = first

/-- A head record has the version of its last writer, and every writer wrote a higher
version than those before it, the first of which created the record. -/
structure WritersOrdered (db : SecretMetadataTables) (phases : Nat → Option Standing) : Prop where
  newest : ∀ {id head}, db.secrets.get id = some head →
    ∃ p input first, Writer phases p input id first ∧ input.version = head.currentVersion
  creator : ∀ {id head}, db.secrets.get id = some head → ∃ p input, Writer phases p input id true
  below : ∀ {p input id first head}, Writer phases p input id first →
    db.secrets.get id = some head → input.version ≤ head.currentVersion
  apart : ∀ {p input q other id first first'}, p ≠ q → Writer phases p input id first →
    Writer phases q other id first' →
    input.version ≠ other.version ∧ (first = true → input.version < other.version)

variable {past : (metadataPlatform τ).History} {phases phases' : Nat → Option Standing} {pid : Nat}
  {input : SecretStoredRecord} {stage stage' : Stage} {db db' : SecretMetadataTables}

theorem at_moved {P : Stage → Prop} {p : Nat} {other : SecretStoredRecord} :
    At (moved τ phases pid input stage') p other P ↔
      (p = pid ∧ other = input ∧ P stage') ∨ p ≠ pid ∧ At phases p other P := by
  constructor
  · rintro ⟨st, hp, hst⟩
    rcases standing_cases hp with ⟨rfl, heq⟩ | ⟨hne, hp⟩
    · obtain ⟨rfl, rfl⟩ := Standing.mk.inj heq
      exact .inl ⟨rfl, rfl, hst⟩
    · exact .inr ⟨hne, st, hp, hst⟩
  · rintro (⟨rfl, rfl, hst⟩ | ⟨hne, st, hp, hst⟩)
    · exact ⟨stage', Discipline.Phases.move_same .., hst⟩
    · exact ⟨st, (Discipline.Phases.move_other _ _ hne).trans hp, hst⟩

/-- A step that makes no difference. -/
theorem at_keep {P : Stage → Prop} (hpid : phases pid = some ⟨input, stage⟩) (hP : P stage' ↔ P stage)
    (p : Nat) (other : SecretStoredRecord) :
    At (moved τ phases pid input stage') p other P ↔ At phases p other P := by
  rw [at_moved]
  by_cases hne : p = pid
  · subst hne
    constructor
    · rintro (⟨-, rfl, hst⟩ | ⟨hne, -⟩)
      · exact ⟨stage, hpid, hP.mp hst⟩
      · exact absurd rfl hne
    · rintro ⟨st, hp, hst⟩
      obtain ⟨rfl, rfl⟩ := Standing.mk.inj (Option.some.inj (hpid.symm.trans hp))
      exact .inl ⟨rfl, rfl, hP.mpr hst⟩
  · constructor
    · rintro (⟨heq, -⟩ | ⟨-, hp⟩)
      · exact absurd heq hne
      · exact hp
    · exact fun hp => .inr ⟨hne, hp⟩

theorem not_at {P : Stage → Prop} (hpid : ∀ s, phases pid = some s → ¬ P s.stage)
    {other : SecretStoredRecord} : ¬ At phases pid other P := by
  rintro ⟨st, hp, hst⟩
  exact hpid _ hp hst

/-- A process that starts is at no such stage. -/
theorem at_start {P : Stage → Prop} (hpid : phases pid = none) (hP : ¬ P .started) (p : Nat)
    (other : SecretStoredRecord) :
    At (moved τ phases pid input .started) p other P ↔ At phases p other P := by
  rw [at_moved]
  constructor
  · rintro (⟨-, -, hst⟩ | ⟨-, hp⟩)
    · exact absurd hst hP
    · exact hp
  · intro hp
    refine .inr ⟨?_, hp⟩
    rintro rfl
    obtain ⟨st, hst, -⟩ := hp
    rw [hpid] at hst
    cases hst

theorem writer_keep (hpid : phases pid = some ⟨input, stage⟩) (hhead : stage'.head? = stage.head?)
    (hfirst : stage'.first = stage.first) (p : Nat) (other : SecretStoredRecord) (id : String)
    (first : Bool) :
    Writer (moved τ phases pid input stage') p other id first ↔ Writer phases p other id first :=
  at_keep hpid (by rw [hhead, hfirst]) p other

namespace WritersOrdered

theorem keep (h : WritersOrdered db phases) (hsecrets : db'.secrets = db.secrets)
    (hwriter : ∀ p other id first, Writer phases' p other id first ↔ Writer phases p other id first) :
    WritersOrdered db' phases' where
  newest := by
    intro id head hget
    obtain ⟨p, other, first, hp, hversion⟩ := h.newest (hsecrets ▸ hget)
    exact ⟨p, other, first, (hwriter ..).mpr hp, hversion⟩
  creator := by
    intro id head hget
    obtain ⟨p, other, hp⟩ := h.creator (hsecrets ▸ hget)
    exact ⟨p, other, (hwriter ..).mpr hp⟩
  below := fun hp hget => h.below ((hwriter ..).mp hp) (hsecrets ▸ hget)
  apart := fun hne hp hq => h.apart hne ((hwriter ..).mp hp) ((hwriter ..).mp hq)

/-- A head record is written, by the first of its secret or over a lower version. -/
theorem write (h : WritersOrdered db phases) (hkept : HeadsKept db past phases)
    (hpid : ∀ s, phases pid = some s → s.stage.head? = none) {id : String} {head : Secret}
    (hwritten : stage'.head? = some id) (hfirst : stage'.first = true ↔ db.secrets.get id = none)
    (hhigher : ∀ old, db.secrets.get id = some old → old.currentVersion < input.version)
    (hversion : head.currentVersion = input.version)
    (hsecrets : db'.secrets = db.secrets.put id head) :
    WritersOrdered db' (moved τ phases pid input stage') := by
  have hwriter : ∀ p other id first, Writer (moved τ phases pid input stage') p other id first ↔
      (p = pid ∧ other = input ∧ stage'.head? = some id ∧ stage'.first = first) ∨
        p ≠ pid ∧ Writer phases p other id first := fun p other id first => at_moved
  have hnot : ∀ {other id first}, ¬ Writer phases pid other id first := fun hp =>
    not_at (fun s hs hst => by
      rw [hpid s hs] at hst
      exact nomatch hst.1) hp
  -- whoever else wrote the record wrote a lower version, and was not the first to come
  have hlower : ∀ {q other first}, Writer phases q other id first →
      other.version < input.version ∧ stage'.first = false := by
    intro q other first hq
    obtain ⟨st, hst, hid, hf⟩ := hq
    obtain ⟨old, hold, -⟩ := hkept.wrote hst hid
    refine ⟨lt_of_le_of_lt (h.below ⟨st, hst, hid, hf⟩ hold) (hhigher old hold), ?_⟩
    rw [← Bool.not_eq_true, hfirst, hold]
    nofun
  have hother : ∀ {q other id' first}, Writer phases q other id' first → q ≠ pid := by
    rintro q other id' first hq rfl
    exact hnot hq
  constructor
  · intro id' new hget
    rw [hsecrets, Table.get_put] at hget
    split at hget
    · next heq =>
      obtain rfl := Option.some.inj hget
      exact ⟨pid, input, stage'.first, (hwriter ..).mpr (.inl ⟨rfl, rfl, heq ▸ hwritten, rfl⟩),
        hversion.symm⟩
    · obtain ⟨p, other, first, hp, hv⟩ := h.newest hget
      exact ⟨p, other, first, (hwriter ..).mpr (.inr ⟨hother hp, hp⟩), hv⟩
  · intro id' new hget
    rw [hsecrets, Table.get_put] at hget
    have hold : ∀ {old}, db.secrets.get id' = some old →
        ∃ p other, Writer (moved τ phases pid input stage') p other id' true := by
      intro old hold
      obtain ⟨p, other, hp⟩ := h.creator hold
      exact ⟨p, other, (hwriter ..).mpr (.inr ⟨hother hp, hp⟩)⟩
    split at hget
    · next heq =>
      subst heq
      cases hid : db.secrets.get id' with
      | none => exact ⟨pid, input, (hwriter ..).mpr (.inl ⟨rfl, rfl, hwritten, hfirst.mpr hid⟩)⟩
      | some old => exact hold hid
    · exact hold hget
  · intro p other id' first new hp hget
    rw [hsecrets, Table.get_put] at hget
    rcases (hwriter ..).mp hp with ⟨-, rfl, hid, -⟩ | ⟨-, hp⟩
    · obtain rfl := Option.some.inj (hwritten.symm.trans hid)
      rw [if_pos rfl] at hget
      rw [← Option.some.inj hget, hversion]
    · split at hget
      · next heq =>
        subst heq
        rw [← Option.some.inj hget, hversion]
        exact le_of_lt (hlower hp).1
      · exact h.below hp hget
  · intro p other q third id' first first' hne hp hq
    rcases (hwriter ..).mp hp with ⟨rfl, rfl, hid, rfl⟩ | ⟨-, hp'⟩
    · obtain rfl := Option.some.inj (hwritten.symm.trans hid)
      rcases (hwriter ..).mp hq with ⟨rfl, -⟩ | ⟨-, hq'⟩
      · exact absurd rfl hne
      · obtain ⟨hlt, hlater⟩ := hlower hq'
        refine ⟨ne_of_gt hlt, fun hyes => ?_⟩
        rw [hlater] at hyes
        cases hyes
    · rcases (hwriter ..).mp hq with ⟨rfl, rfl, hid, -⟩ | ⟨-, hq'⟩
      · obtain rfl := Option.some.inj (hwritten.symm.trans hid)
        have hlt := (hlower hp').1
        exact ⟨ne_of_lt hlt, fun _ => hlt⟩
      · exact h.apart hne hp' hq'

omit [Timestamp τ] in
theorem init (hdb : db = {}) : WritersOrdered db fun _ => none := by
  subst hdb
  constructor
  all_goals intros; simp_all [Table.get_empty, Writer, At]

end WritersOrdered

/-- **Head records are written in the order of their versions**, while calls keep theirs. -/
theorem writersOrdered_inductive : (metadataProtocol τ).InductiveOver Clean
    (fun w past phases => HeadsKept w.secretMetadata past phases)
    (fun w _ phases => WritersOrdered w.secretMetadata phases) where
  spawn := by
    rintro w past phases pid call - h hnone - -
    exact h.keep rfl fun p other id first => at_start hnone (fun hst => nomatch hst.1) p other
  step := by
    rintro past phases pid ⟨input, stage⟩ ⟨input', stage'⟩ step choice hkept h hpid - hnext hclean
    obtain ⟨-, hinput, -, hnext⟩ := hnext
    obtain rfl : input' = input := hinput
    obtain ⟨horder, pid', step', heq, hok⟩ := hclean
    obtain ⟨rfl, rfl⟩ := Event.ran.inj heq
    have hunwritten : stage.head? = none → ∀ s, phases pid = some s → s.stage.head? = none := by
      intro hnone s hs
      obtain rfl := Option.some.inj (hpid.symm.trans hs)
      exact hnone
    cases hnext with
    | draws hop hafter | misses hop hnone hafter | finds hop hfound hafter | lists hop hafter
    | retires hop hafter | records hop hnone hafter | tells hop hafter =>
      rw [hafter]
      exact h.keep rfl (writer_keep hpid rfl rfl)
    | fails herror =>
      obtain ⟨err, herr⟩ := herror
      exact absurd herr (hok err)
    | @creates id hop hnone hafter =>
      refine h.write hkept (hunwritten rfl) rfl (iff_of_true rfl hnone) ?_ rfl
        (congrArg SecretMetadataTables.secrets hafter)
      intro old hold
      rw [hnone] at hold
      cases hold
    | @advances existing hop hafter =>
      obtain ⟨hof, head, hhead, -⟩ := hkept.found hpid
      refine h.write hkept (hunwritten rfl) rfl ?_ ?_ rfl
        (congrArg SecretMetadataTables.secrets hafter)
      · rw [hhead]
        exact iff_of_false nofun nofun
      · intro old hold
        simp only [inOrder, hop, hold, Option.all_some, decide_eq_true_eq] at horder
        exact horder
  stop := by
    rintro w past phases pid ph call - h hpid ⟨-, pid', step, heq, -⟩
    cases heq
  env := by
    rintro w w' past phases move - h henv
    obtain rfl := Option.some.inj henv
    exact h

end writers

/-! ## Version records -/

section versions

variable [Timestamp τ]

/-- It has inserted its version under the id. -/
def Holder (phases : Nat → Option Standing) (p : Nat) (input : SecretStoredRecord)
    (head id : String) : Prop :=
  At phases p input fun stage => stage.head? = some head ∧ stage.version? = some id

/-- It has read the active versions of a head record, and these are left to retire. -/
def Lister (phases : Nat → Option Standing) (p : Nat) (input : SecretStoredRecord)
    (head : String) (left : List SecretVersion) : Prop :=
  At phases p input fun stage => stage.head? = some head ∧ stage.listed = true ∧ stage.left = left

/-- A version record is that of a process; it is retired by a higher version, which has
still to retire it where it is active. -/
structure VersionsKept (db : SecretMetadataTables) (past : (metadataPlatform τ).History)
    (phases : Nat → Option Standing) : Prop where
  keys : db.versions.keys.Nodup
  owner : ∀ {id r}, db.versions.get id = some r →
    ∃ p input, Holder phases p input r.secretId id ∧ r.version = input.version ∧ r.id = id
  held : ∀ {p input head id}, Holder phases p input head id →
    ∃ r, db.versions.get id = some r ∧ r.secretId = head ∧ r.version = input.version
  retired : ∀ {id r}, db.versions.get id = some r → r.status ≠ .active → r.status = .retired ∧
    ∃ p input first, Writer phases p input r.secretId first ∧ r.version < input.version
  left : ∀ {p input head left previous}, Lister phases p input head left → previous ∈ left →
    previous.secretId = head ∧ previous.version < input.version ∧
      ∃ r, db.versions.get previous.id = some r ∧ r.secretId = head ∧ r.version = previous.version
  pending : ∀ {p input head left id r}, Lister phases p input head left →
    db.versions.get id = some r → r.secretId = head → r.version < input.version →
    r.status = .active → ∃ previous ∈ left, previous.id = id
  listed : ∀ {p input head left}, Lister phases p input head left →
    ∃ q step, .ran q step ∈ past ∧ step.op.listsHead head = true ∧ step.call = input

variable {past past' : (metadataPlatform τ).History} {e : (metadataPlatform τ).Event}
  {phases phases' : Nat → Option Standing} {pid : Nat} {input : SecretStoredRecord}
  {stage stage' : Stage} {db db' : SecretMetadataTables}

theorem holder_keep (hpid : phases pid = some ⟨input, stage⟩) (hhead : stage'.head? = stage.head?)
    (hversion : stage'.version? = stage.version?) (p : Nat) (other : SecretStoredRecord)
    (head id : String) :
    Holder (moved τ phases pid input stage') p other head id ↔ Holder phases p other head id :=
  at_keep hpid (by rw [hhead, hversion]) p other

theorem lister_keep (hpid : phases pid = some ⟨input, stage⟩) (hhead : stage'.head? = stage.head?)
    (hlisted : stage'.listed = stage.listed) (hleft : stage'.left = stage.left) (p : Nat)
    (other : SecretStoredRecord) (head : String) (left : List SecretVersion) :
    Lister (moved τ phases pid input stage') p other head left ↔ Lister phases p other head left :=
  at_keep hpid (by rw [hhead, hlisted, hleft]) p other

namespace VersionsKept

/-- A step that leaves version records alone. -/
theorem keep (h : VersionsKept db past phases) (hversions : db'.versions = db.versions)
    (hpast : ∀ e ∈ past, e ∈ past')
    (hwriter : ∀ p other id first, Writer phases p other id first → Writer phases' p other id first)
    (hholder : ∀ p other head id, Holder phases' p other head id ↔ Holder phases p other head id)
    (hlister : ∀ p other head left, Lister phases' p other head left ↔ Lister phases p other head left) :
    VersionsKept db' past' phases' where
  keys := hversions ▸ h.keys
  owner := by
    intro id r hget
    obtain ⟨p, other, hp, hr⟩ := h.owner (hversions ▸ hget)
    exact ⟨p, other, (hholder ..).mpr hp, hr⟩
  held := by
    intro p other head id hp
    rw [hversions]
    exact h.held ((hholder ..).mp hp)
  retired := by
    intro id r hget hstatus
    obtain ⟨hretired, p, other, first, hp, hlt⟩ := h.retired (hversions ▸ hget) hstatus
    exact ⟨hretired, p, other, first, hwriter _ _ _ _ hp, hlt⟩
  left := by
    intro p other head left previous hp hmem
    rw [hversions]
    exact h.left ((hlister ..).mp hp) hmem
  pending := by
    intro p other head left id r hp hget
    exact h.pending ((hlister ..).mp hp) (hversions ▸ hget)
  listed := by
    intro p other head left hp
    obtain ⟨q, step, hmem, hstep⟩ := h.listed ((hlister ..).mp hp)
    exact ⟨q, step, hpast _ hmem, hstep⟩

/-- A step before the head record is written, or behind the version record. -/
theorem move (h : VersionsKept db past phases) (hversions : db'.versions = db.versions)
    (hpid : phases pid = some ⟨input, stage⟩)
    (hwriter : ∀ id first, stage.head? = some id ∧ stage.first = first →
      stage'.head? = some id ∧ stage'.first = first)
    (hholder : ∀ head id, stage'.head? = some head ∧ stage'.version? = some id ↔
      stage.head? = some head ∧ stage.version? = some id)
    (hlister : ∀ head left, stage'.head? = some head ∧ stage'.listed = true ∧ stage'.left = left ↔
      stage.head? = some head ∧ stage.listed = true ∧ stage.left = left) :
    VersionsKept db' (e :: past) (moved τ phases pid input stage') := by
  refine h.keep hversions (fun _ => List.mem_cons_of_mem _) ?_
    (fun p other head id => at_keep hpid (hholder head id) p other)
    (fun p other head left => at_keep hpid (hlister head left) p other)
  intro p other id first hp
  rw [Writer, at_moved]
  by_cases hne : p = pid
  · subst hne
    obtain ⟨st, hst, hwrote⟩ := hp
    obtain ⟨rfl, rfl⟩ := Standing.mk.inj (Option.some.inj (hpid.symm.trans hst))
    exact .inl ⟨rfl, rfl, hwriter id first hwrote⟩
  · exact .inr ⟨hne, hp⟩

/-- The active versions are read: all of them are lower. -/
theorem list (h : VersionsKept db past phases) {head : String}
    (hpid : phases pid = some ⟨input, .advanced head⟩)
    (hlower : ∀ v ∈ db.versionsOf head, v.version < input.version)
    (hlists : ∃ q step, .ran q step ∈ e :: past ∧ step.op.listsHead head = true ∧ step.call = input) :
    VersionsKept db (e :: past) (moved τ phases pid input (.retiring head false
      (db.versions.find fun v => v.secretId == head && v.status == .active))) := by
  have hfind : ∀ v, v ∈ (db.versions.find fun v => v.secretId == head && v.status == .active) ↔
      (∃ id, db.versions.get id = some v) ∧ v.secretId = head ∧ v.status = .active := by
    intro v
    rw [Table.mem_find]
    simp
  have hbelow : ∀ id v, db.versions.get id = some v → v.secretId = head → v.version < input.version :=
    fun id v hget hhead => hlower v (Table.mem_find.mpr ⟨⟨id, hget⟩, by simp [hhead]⟩)
  have hholder : ∀ p other head' id,
      Holder (moved τ phases pid input (.retiring head false
        (db.versions.find fun v => v.secretId == head && v.status == .active))) p other head' id ↔
      Holder phases p other head' id := holder_keep hpid rfl rfl
  have hwriter : ∀ p other id first,
      Writer (moved τ phases pid input (.retiring head false
        (db.versions.find fun v => v.secretId == head && v.status == .active))) p other id first ↔
      Writer phases p other id first := writer_keep hpid rfl rfl
  constructor
  · exact h.keys
  · intro id r hget
    obtain ⟨p, other, hp, hr⟩ := h.owner hget
    exact ⟨p, other, (hholder ..).mpr hp, hr⟩
  · intro p other head' id hp
    exact h.held ((hholder ..).mp hp)
  · intro id r hget hstatus
    obtain ⟨hretired, p, other, first, hp, hlt⟩ := h.retired hget hstatus
    exact ⟨hretired, p, other, first, (hwriter ..).mpr hp, hlt⟩
  · intro p other head' left previous hp hmem
    rcases at_moved.mp hp with ⟨-, rfl, hid, -, rfl⟩ | ⟨-, hp⟩
    · obtain rfl := Option.some.inj hid
      obtain ⟨⟨id, hget⟩, hhead, -⟩ := (hfind _).mp hmem
      obtain ⟨-, -, -, -, hid⟩ := h.owner hget
      exact ⟨hhead, hbelow id _ hget hhead, previous, hid ▸ hget, hhead, rfl⟩
    · exact h.left hp hmem
  · intro p other head' left id r hp hget hhead hlt hactive
    rcases at_moved.mp hp with ⟨-, rfl, hid, -, rfl⟩ | ⟨-, hp⟩
    · obtain rfl := Option.some.inj hid
      obtain ⟨-, -, -, -, hid⟩ := h.owner hget
      exact ⟨r, (hfind r).mpr ⟨⟨id, hget⟩, hhead, hactive⟩, hid⟩
    · exact h.pending hp hget hhead hlt hactive
  · intro p other head' left hp
    rcases at_moved.mp hp with ⟨-, rfl, hid, -, -⟩ | ⟨-, hp⟩
    · obtain rfl := Option.some.inj hid
      exact hlists
    · obtain ⟨q, step, hmem, hstep⟩ := h.listed hp
      exact ⟨q, step, List.mem_cons_of_mem _ hmem, hstep⟩

/-- A version is retired. -/
theorem retire (h : VersionsKept db past phases) {head : String} {previous : SecretVersion}
    {rest : List SecretVersion}
    (hpid : phases pid = some ⟨input, .retiring head false (previous :: rest)⟩)
    (hversions : db'.versions = db.versions.put previous.id { previous with status := .retired }) :
    VersionsKept db' (e :: past) (moved τ phases pid input (.retiring head false rest)) := by
  have hown : Lister phases pid input head (previous :: rest) := ⟨_, hpid, rfl, rfl, rfl⟩
  obtain ⟨hhead, hlt, stored, hstored, hstoredHead, hstoredVersion⟩ := h.left hown List.mem_cons_self
  -- the record under the id stays the one of the same version of the same head record
  have hkept : ∀ {id r}, db.versions.get id = some r → ∃ r', db'.versions.get id = some r' ∧
      r'.secretId = r.secretId ∧ r'.version = r.version := by
    intro id r hget
    rw [hversions, Table.get_put]
    split
    · next heq =>
      subst heq
      obtain rfl := Option.some.inj (hstored.symm.trans hget)
      exact ⟨_, rfl, hhead.trans hstoredHead.symm, hstoredVersion.symm⟩
    · exact ⟨r, hget, rfl, rfl⟩
  have hget' : ∀ {id r}, db'.versions.get id = some r →
      (id = previous.id ∧ r = { previous with status := .retired }) ∨
        id ≠ previous.id ∧ db.versions.get id = some r := by
    intro id r hget
    rw [hversions, Table.get_put] at hget
    split at hget
    · next heq => exact .inl ⟨heq, (Option.some.inj hget).symm⟩
    · next hne => exact .inr ⟨hne, hget⟩
  have hholder : ∀ p other head' id, Holder (moved τ phases pid input (.retiring head false rest))
      p other head' id ↔ Holder phases p other head' id := holder_keep hpid rfl rfl
  have hwriter : ∀ p other id first, Writer (moved τ phases pid input (.retiring head false rest))
      p other id first ↔ Writer phases p other id first := writer_keep hpid rfl rfl
  constructor
  · rw [hversions]
    exact Table.nodup_put h.keys _ _
  · intro id r hget
    rcases hget' hget with ⟨rfl, rfl⟩ | ⟨-, hget⟩
    · obtain ⟨p, other, hp, hversion, -⟩ := h.owner hstored
      refine ⟨p, other, (hholder ..).mpr ?_, hstoredVersion.symm.trans hversion, rfl⟩
      rw [hstoredHead] at hp
      rw [← hhead] at hp
      exact hp
    · obtain ⟨p, other, hp, hr⟩ := h.owner hget
      exact ⟨p, other, (hholder ..).mpr hp, hr⟩
  · intro p other head' id hp
    obtain ⟨r, hget, hr, hversion⟩ := h.held ((hholder ..).mp hp)
    obtain ⟨r', hr', hhead', hversion'⟩ := hkept hget
    exact ⟨r', hr', hhead'.trans hr, hversion'.trans hversion⟩
  · intro id r hget hstatus
    rcases hget' hget with ⟨rfl, rfl⟩ | ⟨-, hget⟩
    · refine ⟨rfl, pid, input, false, (hwriter ..).mpr ⟨_, hpid, ?_, rfl⟩, hlt⟩
      exact congrArg some hhead.symm
    · obtain ⟨hretired, p, other, first, hp, hless⟩ := h.retired hget hstatus
      exact ⟨hretired, p, other, first, (hwriter ..).mpr hp, hless⟩
  · intro p other head' left other' hp hmem
    have hold : ∃ left', Lister phases p other head' left' ∧ other' ∈ left' := by
      rcases at_moved.mp hp with ⟨rfl, rfl, hid, -, rfl⟩ | ⟨-, hp⟩
      · obtain rfl := Option.some.inj hid
        exact ⟨_, hown, List.mem_cons_of_mem _ hmem⟩
      · exact ⟨left, hp, hmem⟩
    obtain ⟨left', hp, hmem⟩ := hold
    obtain ⟨hhead', hless, r, hget, hr, hversion⟩ := h.left hp hmem
    obtain ⟨r', hr', hsecret, hversion'⟩ := hkept hget
    exact ⟨hhead', hless, r', hr', hsecret.trans hr, hversion'.trans hversion⟩
  · intro p other head' left id r hp hget hr hless hactive
    rcases hget' hget with ⟨rfl, rfl⟩ | ⟨hne, hget⟩
    · cases hactive
    · rcases at_moved.mp hp with ⟨-, rfl, hid, -, rfl⟩ | ⟨-, hp⟩
      · obtain rfl := Option.some.inj hid
        obtain ⟨other', hmem, hid'⟩ := h.pending hown hget hr hless hactive
        rcases List.mem_cons.mp hmem with rfl | hmem
        · exact absurd hid'.symm hne
        · exact ⟨other', hmem, hid'⟩
      · exact h.pending hp hget hr hless hactive
  · intro p other head' left hp
    have hold : ∃ left', Lister phases p other head' left' := by
      rcases at_moved.mp hp with ⟨rfl, rfl, hid, -, -⟩ | ⟨-, hp⟩
      · obtain rfl := Option.some.inj hid
        exact ⟨_, hown⟩
      · exact ⟨left, hp⟩
    obtain ⟨left', hp⟩ := hold
    obtain ⟨q, step, hmem, hstep⟩ := h.listed hp
    exact ⟨q, step, List.mem_cons_of_mem _ hmem, hstep⟩

/-- A version is inserted: no higher one has read what is active. -/
theorem record (h : VersionsKept db past phases) {head id : String} {first : Bool}
    (hpid : phases pid = some ⟨input, .retiring head first []⟩)
    (hnone : db.versions.get id = none)
    (hversions : db'.versions = db.versions.put id (newVersion id head input))
    (hunlisted : ∀ q step, .ran q step ∈ past → step.op.listsHead head = true →
      step.call.version ≤ input.version) :
    VersionsKept db' (e :: past) (moved τ phases pid input (.recorded head first id)) := by
  have hget' : ∀ {id' r}, db'.versions.get id' = some r →
      (id' = id ∧ r = newVersion id head input) ∨ id' ≠ id ∧ db.versions.get id' = some r := by
    intro id' r hget
    rw [hversions, Table.get_put] at hget
    split at hget
    · next heq => exact .inl ⟨heq, (Option.some.inj hget).symm⟩
    · next hne => exact .inr ⟨hne, hget⟩
  have hkept : ∀ {id' r}, db.versions.get id' = some r → db'.versions.get id' = some r := by
    intro id' r hget
    rw [hversions, Table.get_put_other _ _ (by
      rintro rfl
      rw [hnone] at hget
      cases hget)]
    exact hget
  have hholder : ∀ {p other head' id'}, Holder phases p other head' id' →
      Holder (moved τ phases pid input (.recorded head first id)) p other head' id' := by
    intro p other head' id' hp
    refine at_moved.mpr (.inr ⟨?_, hp⟩)
    rintro rfl
    obtain ⟨st, hst, -, hversion⟩ := hp
    obtain rfl := (Standing.mk.inj (Option.some.inj (hpid.symm.trans hst))).2
    cases hversion
  have hlister : ∀ p other head' left, Lister (moved τ phases pid input (.recorded head first id))
      p other head' left ↔ Lister phases p other head' left := lister_keep hpid rfl rfl rfl
  have hwriter : ∀ p other id' first', Writer (moved τ phases pid input (.recorded head first id))
      p other id' first' ↔ Writer phases p other id' first' := writer_keep hpid rfl rfl
  constructor
  · rw [hversions]
    exact Table.nodup_put h.keys _ _
  · intro id' r hget
    rcases hget' hget with ⟨rfl, rfl⟩ | ⟨-, hget⟩
    · exact ⟨pid, input, at_moved.mpr (.inl ⟨rfl, rfl, rfl, rfl⟩), rfl, rfl⟩
    · obtain ⟨p, other, hp, hr⟩ := h.owner hget
      exact ⟨p, other, hholder hp, hr⟩
  · intro p other head' id' hp
    rcases at_moved.mp hp with ⟨-, rfl, hhead, hid⟩ | ⟨-, hp⟩
    · obtain rfl := Option.some.inj hhead
      obtain rfl := Option.some.inj hid
      exact ⟨_, by rw [hversions, Table.get_put_same], rfl, rfl⟩
    · obtain ⟨r, hget, hr⟩ := h.held hp
      exact ⟨r, hkept hget, hr⟩
  · intro id' r hget hstatus
    rcases hget' hget with ⟨rfl, rfl⟩ | ⟨-, hget⟩
    · exact absurd rfl hstatus
    · obtain ⟨hretired, p, other, first', hp, hlt⟩ := h.retired hget hstatus
      exact ⟨hretired, p, other, first', (hwriter ..).mpr hp, hlt⟩
  · intro p other head' left previous hp hmem
    obtain ⟨hhead, hlt, r, hget, hr⟩ := h.left ((hlister ..).mp hp) hmem
    exact ⟨hhead, hlt, r, hkept hget, hr⟩
  · intro p other head' left id' r hp hget hr hlt hactive
    have hstood := (hlister ..).mp hp
    rcases hget' hget with ⟨-, rfl⟩ | ⟨-, hget⟩
    · -- who has read the active versions of the record is not higher
      obtain ⟨q, step, hmem, hlists, rfl⟩ := h.listed hstood
      obtain rfl : head = head' := hr
      exact absurd hlt (not_lt.mpr (hunlisted q step hmem hlists))
    · exact h.pending hstood hget hr hlt hactive
  · intro p other head' left hp
    obtain ⟨q, step, hmem, hstep⟩ := h.listed ((hlister ..).mp hp)
    exact ⟨q, step, List.mem_cons_of_mem _ hmem, hstep⟩

theorem init (hdb : db = {}) :
    VersionsKept db ([] : (metadataPlatform τ).History) fun _ => none := by
  subst hdb
  constructor
  · exact List.nodup_nil
  all_goals intros; simp_all [Table.get_empty, Holder, Lister, At]

end VersionsKept

/-- **A version record is retired by a higher one, and by no other**, while calls keep their
order. -/
theorem versionsKept_inductive : (metadataProtocol τ).Inductive Clean
    (fun w past phases => VersionsKept w.secretMetadata past phases) where
  spawn := by
    rintro w past phases pid call - h hnone - -
    refine h.keep rfl (fun _ he => he) ?_ ?_ ?_
    · exact fun p other id first hp => (at_start hnone (fun hst => nomatch hst.1) p other).mpr hp
    · exact fun p other head id => at_start hnone (fun hst => nomatch hst.1) p other
    · exact fun p other head left => at_start hnone (fun hst => nomatch hst.1) p other
  step := by
    rintro past phases pid ⟨input, stage⟩ ⟨input', stage'⟩ step choice - h hpid - hnext hclean
    obtain ⟨hcall, hinput, -, hnext⟩ := hnext
    obtain rfl : input' = input := hinput
    have hcall : step.call = input' := hcall
    obtain ⟨horder, pid', step', heq, hok⟩ := hclean
    obtain ⟨rfl, rfl⟩ := Event.ran.inj heq
    cases hnext with
    | draws hop hafter | misses hop hnone hafter | finds hop hfound hafter | creates hop hnone hafter
    | advances hop hafter | tells hop hafter =>
      rw [hafter]
      refine h.move rfl hpid ?_ ?_ ?_ <;> simp [Stage.head?, Stage.first, Stage.version?, Stage.listed,
        Stage.left]
    | fails herror =>
      obtain ⟨err, herr⟩ := herror
      exact absurd herr (hok err)
    | @lists head hop hafter =>
      rw [hafter]
      refine h.list hpid ?_ ⟨pid, step, List.mem_cons_self, ?_, hcall⟩
      · simp only [inOrder, hop, hcall, List.all_eq_true, decide_eq_true_eq] at horder
        exact horder
      · rw [hop]
        simp [AppOp.listsHead]
    | retires hop hafter => exact h.retire hpid (congrArg SecretMetadataTables.versions hafter)
    | @records head id first hop hnone hafter =>
      refine h.record hpid hnone (congrArg SecretMetadataTables.versions hafter) ?_
      intro q other hmem hlists
      simp only [inOrder, hop, List.all_eq_true] at horder
      have hevent := horder _ hmem
      have hlists : other.op.listsHead (newVersion id head input').secretId = true := hlists
      simp only [hlists, Bool.not_true, Bool.false_or, decide_eq_true_eq] at hevent
      exact hevent
  stop := by
    rintro w past phases pid ph call - h hpid ⟨-, pid', step, heq, -⟩
    cases heq
  env := by
    rintro w w' past phases move - h henv
    obtain rfl := Option.some.inj henv
    exact h

end versions

/-! ## The trail of events -/

/-- The events of a head record, newest first. -/
def trailOf (db : SecretMetadataTables) (head : String) : List SecretAuditEvent :=
  db.audit.filter fun e => e.secretId == head

/-- One creation, and then rotations only. -/
def IsTrail (events : List SecretAuditEvent) : Prop :=
  ∃ rotated created, events = rotated ++ [created] ∧ created.type = "secret.created" ∧
    ∀ e ∈ rotated, e.type = "secret.rotated"

section trail

variable [Timestamp τ]

/-- It has created the head record and not told of it. -/
def Silent (phases : Nat → Option Standing) (p : Nat) (input : SecretStoredRecord)
    (head : String) : Prop :=
  At phases p input fun stage => stage.head? = some head ∧ stage.first = true ∧ stage.isTold = false

/-- It has told of it. -/
def Told (phases : Nat → Option Standing) (p : Nat) (input : SecretStoredRecord)
    (head : String) : Prop :=
  At phases p input fun stage => stage.head? = some head ∧ stage.isTold = true

/-- The events of a head record begin with that of its creation. -/
structure TrailKept (db : SecretMetadataTables) (phases : Nat → Option Standing) : Prop where
  trail : ∀ head, trailOf db head = [] ∨ IsTrail (trailOf db head)
  silent : ∀ {p input head}, Silent phases p input head → trailOf db head = []
  told : ∀ {p input head}, Told phases p input head → trailOf db head ≠ []
  heard : ∀ e ∈ db.audit, ∃ head, db.secrets.get e.secretId = some head

theorem stored_put {db : SecretMetadataTables} (id : String) (head : Secret) (id' : String) (old : Secret)
    (hget : db.secrets.get id' = some old) : ∃ new, (db.secrets.put id head).get id' = some new := by
  rw [Table.get_put]
  split
  · exact ⟨head, rfl⟩
  · exact ⟨old, hget⟩

namespace TrailKept

variable {past : (metadataPlatform τ).History} {phases phases' : Nat → Option Standing} {pid : Nat}
  {input : SecretStoredRecord} {stage stage' : Stage} {db db' : SecretMetadataTables}

/-- A step that tells of nothing. -/
theorem keep (h : TrailKept db phases) (haudit : db'.audit = db.audit)
    (hsecrets : ∀ id head, db.secrets.get id = some head → ∃ head', db'.secrets.get id = some head')
    (hsilent : ∀ p other head, Silent phases' p other head →
      Silent phases p other head ∨ db.secrets.get head = none)
    (htold : ∀ p other head, Told phases' p other head → Told phases p other head) :
    TrailKept db' phases' where
  trail := by
    intro head
    unfold trailOf
    rw [haudit]
    exact h.trail head
  silent := by
    intro p other head hp
    unfold trailOf
    rw [haudit]
    rcases hsilent p other head hp with hp | hnone
    · exact h.silent hp
    · -- there are no events of a head record that is not there
      rw [List.filter_eq_nil_iff]
      intro e he hhead
      obtain ⟨head', hget⟩ := h.heard e he
      rw [beq_iff_eq.mp hhead, hnone] at hget
      cases hget
  told := by
    intro p other head hp
    unfold trailOf
    rw [haudit]
    exact h.told (htold p other head hp)
  heard := by
    intro e he
    rw [haudit] at he
    obtain ⟨head, hget⟩ := h.heard e he
    exact hsecrets _ _ hget

/-- A step that tells of the version. -/
theorem tell (h : TrailKept db phases) (hkept : HeadsKept db past phases)
    (hordered : WritersOrdered db phases) {head version : String} {first : Bool} {id : String}
    (hpid : phases pid = some ⟨input, .recorded head first version⟩)
    (hcreated : first = false → trailOf db head ≠ [])
    (hafter : db' = { db with audit := storedEvent id head first input :: db.audit }) :
    TrailKept db' (moved τ phases pid input (.told head first version)) := by
  subst hafter
  have hhere : trailOf { db with audit := storedEvent id head first input :: db.audit } head =
      storedEvent id head first input :: trailOf db head := by
    unfold trailOf
    rw [List.filter_cons_of_pos (by simp [storedEvent])]
  have hthere : ∀ head', head' ≠ head →
      trailOf { db with audit := storedEvent id head first input :: db.audit } head' =
        trailOf db head' := by
    intro head' hne
    unfold trailOf
    rw [List.filter_cons_of_neg]
    simpa [storedEvent] using Ne.symm hne
  constructor
  · intro head'
    by_cases hne : head' = head
    · subst hne
      rw [hhere]
      cases first with
      | true =>
        have hnone : trailOf db head' = [] := h.silent ⟨_, hpid, rfl, rfl, rfl⟩
        rw [hnone]
        exact .inr ⟨[], _, rfl, rfl, fun e he => nomatch he⟩
      | false =>
        rcases h.trail head' with hnone | ⟨rotated, created, htrail, htype, hrotated⟩
        · exact absurd hnone (hcreated rfl)
        · rw [htrail]
          refine .inr ⟨_ :: rotated, created, rfl, htype, fun e he => ?_⟩
          rcases List.mem_cons.mp he with rfl | he
          · rfl
          · exact hrotated e he
    · rw [hthere head' hne]
      exact h.trail head'
  · intro p other head' hp
    rcases at_moved.mp hp with ⟨-, -, -, -, htold⟩ | ⟨hne, hstood⟩
    · cases htold
    · by_cases hhead : head' = head
      · subst hhead
        -- it would be the creator as well
        have hnone := h.silent hstood
        have hfirst : first = true := by
          cases first with
          | true => rfl
          | false => exact absurd hnone (hcreated rfl)
        obtain ⟨st, hst, hid, hf, -⟩ := hstood
        have hother : Writer phases p other head' true := ⟨st, hst, hid, hf⟩
        have hown : Writer phases pid input head' true := ⟨_, hpid, rfl, hfirst⟩
        exact absurd ((hordered.apart hne hother hown).2 rfl)
          (lt_asymm ((hordered.apart (Ne.symm hne) hown hother).2 rfl))
      · rw [hthere head' hhead]
        exact h.silent hstood
  · intro p other head' hp
    by_cases hhead : head' = head
    · rw [hhead, hhere]
      exact List.cons_ne_nil _ _
    · rw [hthere head' hhead]
      rcases at_moved.mp hp with ⟨-, -, hid, -⟩ | ⟨-, hp⟩
      · exact absurd (Option.some.inj hid).symm hhead
      · exact h.told hp
  · intro e he
    rcases List.mem_cons.mp he with rfl | he
    · obtain ⟨stored, hget, -⟩ := hkept.wrote hpid rfl
      exact ⟨stored, hget⟩
    · exact h.heard e he

omit [Timestamp τ] in
theorem init (hdb : db = {}) : TrailKept db fun _ => none := by
  subst hdb
  constructor
  · exact fun _ => .inl rfl
  all_goals intros; simp_all [Silent, Told, At]

end TrailKept

/-- **One creation, and then rotations only**, while calls keep their order. -/
theorem trailKept_inductive : (metadataProtocol τ).InductiveOver Clean
    (fun w past phases => HeadsKept w.secretMetadata past phases ∧
      WritersOrdered w.secretMetadata phases)
    (fun w _ phases => TrailKept w.secretMetadata phases) where
  spawn := by
    rintro w past phases pid call - h hnone - -
    refine h.keep rfl (fun _ head hget => ⟨head, hget⟩) ?_ ?_
    · exact fun p other head hp => .inl ((at_start hnone (fun hst => nomatch hst.1) p other).mp hp)
    · exact fun p other head hp => (at_start hnone (fun hst => nomatch hst.1) p other).mp hp
  step := by
    rintro past phases pid ⟨input, stage⟩ ⟨input', stage'⟩ step choice hbase h hpid - hnext hclean
    obtain ⟨hkept, hordered⟩ := hbase
    obtain ⟨-, hinput, -, hnext⟩ := hnext
    obtain rfl : input' = input := hinput
    obtain ⟨horder, pid', step', heq, hok⟩ := hclean
    obtain ⟨rfl, rfl⟩ := Event.ran.inj heq
    cases hnext with
    | draws hop hafter | misses hop hnone hafter | finds hop hfound hafter | lists hop hafter
    | retires hop hafter | records hop hnone hafter =>
      rw [hafter]
      refine h.keep rfl (fun _ head hget => ⟨head, hget⟩) ?_ ?_
      · intro p other head hp
        refine .inl ((at_keep hpid ?_ p other).mp hp)
        simp [Stage.head?, Stage.first, Stage.isTold]
      · intro p other head hp
        refine (at_keep hpid ?_ p other).mp hp
        simp [Stage.head?, Stage.isTold]
    | fails herror =>
      obtain ⟨err, herr⟩ := herror
      exact absurd herr (hok err)
    | @creates id hop hnone hafter =>
      rw [hafter]
      refine h.keep rfl (stored_put _ _) ?_ ?_
      · intro p other head hp
        rcases at_moved.mp hp with ⟨-, -, hid, -⟩ | ⟨-, hp⟩
        · exact .inr (Option.some.inj hid ▸ hnone)
        · exact .inl hp
      · intro p other head hp
        refine (at_keep hpid ?_ p other).mp hp
        simp [Stage.head?, Stage.isTold]
    | @advances existing hop hafter =>
      rw [hafter]
      refine h.keep rfl (stored_put _ _) ?_ ?_
      · intro p other head hp
        refine .inl ((at_keep hpid ?_ p other).mp hp)
        simp [Stage.head?, Stage.first]
      · intro p other head hp
        refine (at_keep hpid ?_ p other).mp hp
        simp [Stage.head?, Stage.isTold]
    | @tells head id version first hop hafter =>
      refine h.tell hkept hordered hpid ?_ hafter
      rintro rfl hnone
      simp only [inOrder, hop, storedEvent, Bool.false_eq_true, if_false, bne_self_eq_false,
        Bool.false_or, List.any_eq_true, Bool.and_eq_true, beq_iff_eq] at horder
      obtain ⟨e, he, hhead, -⟩ := horder
      exact absurd (beq_iff_eq.mpr hhead) (List.filter_eq_nil_iff.mp hnone e he)
  stop := by
    rintro w past phases pid ph call - h hpid ⟨-, pid', step, heq, -⟩
    cases heq
  env := by
    rintro w w' past phases move - h henv
    obtain rfl := Option.some.inj henv
    exact h

end trail

/-! ## Runs -/

section runs

variable [Timestamp τ]

/-- All calls have resolved. -/
def allStored (c : (metadataPlatform τ).Config) : Bool :=
  c.procs.all fun p => match p with
    | some ⟨_, .settled (.ok _)⟩ => true
    | _ => false

/-- A call that was refused an answer has failed. -/
theorem failed_inductive : (metadataProtocol τ).Inductive (fun _ _ => True)
    (fun _ past phases => ∀ pid step err, .ran pid step ∈ past → step.res = .error err →
      phases pid = none ∨ ∃ input, phases pid = some ⟨input, .failed⟩) where
  spawn := by
    intro w past phases pid call _ h _ _ hfresh q step err hmem hres
    rw [Discipline.Phases.move_other _ _ (hfresh q step hmem)]
    exact h q step err hmem hres
  step := by
    rintro past phases pid ⟨input, stage⟩ ⟨input', stage'⟩ step choice - h hpid - hnext - q other err hmem hres
    obtain ⟨-, -, hfails, hnext⟩ := hnext
    by_cases hq : q = pid
    · subst hq
      rw [Discipline.Phases.move_same]
      refine .inr ⟨input', ?_⟩
      have hstage : stage' = .failed := by
        rcases List.mem_cons.mp hmem with heq | hmem
        · obtain ⟨-, rfl⟩ := Event.ran.inj heq
          exact hfails err hres
        · rcases h q other err hmem hres with hnone | ⟨_, hfailed⟩
          · rw [hpid] at hnone
            cases hnone
          · obtain rfl := (Standing.mk.inj (Option.some.inj (hpid.symm.trans hfailed))).2
            cases hnext with
            | draws => rfl
            | fails => rfl
      rw [hstage]
    · rw [Discipline.Phases.move_other _ _ hq]
      rcases List.mem_cons.mp hmem with heq | hmem
      · exact absurd (Event.ran.inj heq).1 hq
      · exact h q other err hmem hres
  stop := by
    intro w past phases pid ph call _ h _ _ q step err hmem hres
    by_cases hq : q = pid
    · subst hq
      exact .inl (Discipline.Phases.move_same ..)
    · rw [Discipline.Phases.move_other _ _ hq]
      rcases List.mem_cons.mp hmem with heq | hmem
      · cases heq
      · exact h q step err hmem hres
  env := by
    intro w w' past phases move _ h _
    exact h

/-- What the metadata store says of a secret once everything has been recorded. -/
structure RecordedIn (db : SecretMetadataTables) (calls : List SecretStoredRecord)
    (input : SecretStoredRecord) (head : Secret) : Prop where
  /-- There is one head record. -/
  one : db.heads input.tenantId input.secretId = [head]
  /-- Its version is the highest that was stored. -/
  stored : ∃ call ∈ calls, SameSecret call input ∧ call.version = head.currentVersion
  highest : ∀ call ∈ calls, SameSecret call input → call.version ≤ head.currentVersion
  /-- One version is active, and it is that one. -/
  active : ∃ v, (db.versionsOf head.id).filter (fun v => v.status == .active) = [v] ∧
    v.version = head.currentVersion
  /-- The lower ones are retired. -/
  retired : ∀ v ∈ db.versionsOf head.id, v.version < head.currentVersion → v.status = .retired
  /-- One creation, and then rotations. -/
  trail : IsTrail (trailOf db head.id)

/-- What is found is one record where only one answers. -/
theorem find_eq_singleton {α : Type} {t : Table String α} (hkeys : t.keys.Nodup) {p : α → Bool}
    {k : String} {a : α} (hget : t.get k = some a) (hp : p a = true)
    (honly : ∀ k' a', t.get k' = some a' → p a' = true → k' = k) : t.find p = [a] := by
  have hmem : ∀ {x}, x ∈ t.find p ↔ x = a := by
    intro x
    rw [Table.mem_find]
    constructor
    · rintro ⟨⟨k', hk'⟩, hx⟩
      rw [honly k' x hk' hx, hget] at hk'
      exact (Option.some.inj hk').symm
    · rintro rfl
      exact ⟨⟨k, hget⟩, hp⟩
  have hnodup : ((t.find p).map id).Nodup :=
    Table.nodup_find_map hkeys fun k₁ k₂ a₁ a₂ h₁ h₂ hp₁ hp₂ _ =>
      (honly k₁ a₁ h₁ hp₁).trans (honly k₂ a₂ h₂ hp₂).symm
  rw [List.map_id] at hnodup
  cases hlist : t.find p with
  | nil =>
    rw [hlist] at hmem
    exact nomatch hmem.mpr rfl
  | cons x rest =>
    rw [hlist] at hmem hnodup
    obtain rfl := hmem.mp List.mem_cons_self
    cases rest with
    | nil => rfl
    | cons y rest =>
      obtain rfl := hmem.mp (List.mem_cons_of_mem _ List.mem_cons_self)
      exact absurd List.mem_cons_self (List.nodup_cons.mp hnodup).1

/-- All invariants of the store. -/
structure StoreKept (db : SecretMetadataTables) (past : (metadataPlatform τ).History)
    (phases : Nat → Option Standing) : Prop where
  heads : HeadsKept db past phases
  writers : WritersOrdered db phases
  versions : VersionsKept db past phases
  trail : TrailKept db phases

theorem storeKept_of_run {w : World τ} (hempty : w.secretMetadata = {})
    {as : List (metadataPlatform τ).Action} {c : (metadataPlatform τ).Config}
    (hrun : run (Config.init w) as = some c) (hclean : Throughout Clean c.past) :
    ∃ phases, StoreKept c.world.secretMetadata c.past phases ∧ (metadataProtocol τ).Tracks c phases := by
  have hbase := headsKept_inductive (τ := τ).and writersOrdered_inductive
  have hall := (hbase.and trailKept_inductive).and versionsKept_inductive.over
  obtain ⟨phases, ⟨⟨⟨hheads, hwriters⟩, htrail⟩, hversions⟩, htracks⟩ :=
    Discipline.sound metadata_obeyed hall ⟨⟨⟨HeadsKept.init hempty, WritersOrdered.init hempty⟩,
      TrailKept.init hempty⟩, VersionsKept.init hempty⟩ hrun hclean
  exact ⟨phases, ⟨hheads, hwriters, hversions, htrail⟩, htracks⟩

/-- Where every call of a run has told of its version, the store says what was stored. -/
theorem recordedIn_of_told {db : SecretMetadataTables} {past : (metadataPlatform τ).History}
    {phases : Nat → Option Standing} {calls : List SecretStoredRecord} (h : StoreKept db past phases)
    (hcalls : ∀ p input stage, phases p = some ⟨input, stage⟩ → input ∈ calls)
    (htold : ∀ p input stage, phases p = some ⟨input, stage⟩ →
      ∃ head first version, stage = .told head first version)
    (hall : ∀ input ∈ calls, ∃ p stage, phases p = some ⟨input, stage⟩) :
    ∀ input ∈ calls, ∃ head, RecordedIn db calls input head := by
  intro input hinput
  obtain ⟨p, stage, hp⟩ := hall input hinput
  obtain ⟨id, first, version, rfl⟩ := htold p input stage hp
  obtain ⟨head, hget, hof⟩ := h.heads.wrote hp rfl
  have hid : head.id = id := h.heads.id hget
  -- the last writer
  obtain ⟨q, latest, first', ⟨stage', hq, hhead, hfirst⟩, hversion⟩ := h.writers.newest hget
  obtain ⟨id', first'', version', rfl⟩ := htold q latest stage' hq
  obtain rfl : id' = id := Option.some.inj hhead
  obtain rfl : first'' = first' := hfirst
  have hwriter : Writer phases q latest id' first'' := ⟨_, hq, rfl, rfl⟩
  have hlatest : SameSecret latest input := by
    obtain ⟨head', hget', hof'⟩ := h.heads.wrote hq rfl
    obtain rfl := Option.some.inj (hget.symm.trans hget')
    exact ⟨hof'.1.symm.trans hof.1, hof'.2.symm.trans hof.2⟩
  obtain ⟨r, hr, hsecret, hrversion⟩ := h.versions.held ⟨_, hq, rfl, rfl⟩
  have hbelow : ∀ {p' other f}, Writer phases p' other id' f → other.version ≤ head.currentVersion :=
    fun hp' => h.writers.below hp' hget
  -- its record is the active one
  have hactive : r.status = .active := by
    by_contra hnot
    obtain ⟨-, p', other, f, hp', hlt⟩ := h.versions.retired hr hnot
    have hle := hbelow (hsecret ▸ hp')
    omega
  have honly : ∀ k v, db.versions.get k = some v → v.secretId = id' → v.status = .active →
      k = version' := by
    intro k v hv hvsecret hvactive
    obtain ⟨p', other, ⟨st, hst, hsthead, hstversion⟩, hvversion, -⟩ := h.versions.owner hv
    by_cases hpq : p' = q
    · subst hpq
      obtain rfl := (Standing.mk.inj (Option.some.inj (hq.symm.trans hst))).2
      exact (Option.some.inj hstversion).symm
    · have hother : Writer phases p' other id' st.first := ⟨st, hst, hvsecret ▸ hsthead, rfl⟩
      obtain ⟨hne, -⟩ := h.writers.apart hpq hother hwriter
      have hle := hbelow hother
      cases first'' with
      | true =>
        have hlt := (h.writers.apart (Ne.symm hpq) hwriter hother).2 rfl
        omega
      | false =>
        have hlister : Lister phases q latest id' [] := ⟨_, hq, rfl, rfl, rfl⟩
        obtain ⟨_, hmem, -⟩ := h.versions.pending hlister hv hvsecret (by omega) hvactive
        cases hmem
  refine ⟨head, ?_, ⟨latest, hcalls q latest _ hq, hlatest, hversion⟩, ?_, ⟨r, ?_, ?_⟩, ?_, ?_⟩
  · refine find_eq_singleton h.heads.keys hget (by simp [hof.1, hof.2]) ?_
    intro k a hk ha
    have ha : a.IsOf input := by simpa [Secret.IsOf] using ha
    exact h.heads.one hk hget (ha.1.trans hof.1.symm) (ha.2.trans hof.2.symm)
  · intro call hcall hsame
    obtain ⟨p', st, hp'⟩ := hall call hcall
    obtain ⟨id₁, first₁, version₁, rfl⟩ := htold p' call st hp'
    obtain ⟨head', hget', hof'⟩ := h.heads.wrote hp' rfl
    obtain rfl := h.heads.one hget' hget (hof'.1.trans (hsame.1.trans hof.1.symm))
      (hof'.2.trans (hsame.2.trans hof.2.symm))
    exact hbelow ⟨_, hp', rfl, rfl⟩
  · unfold SecretMetadataTables.versionsOf Table.find
    rw [List.filter_filter]
    refine find_eq_singleton h.versions.keys hr (by simp [hactive, hsecret, hid]) ?_
    intro k v hv hp'
    simp only [Bool.and_eq_true, beq_iff_eq] at hp'
    exact honly k v hv (hp'.2.trans hid) hp'.1
  · exact hrversion.trans hversion
  · intro v hv hlt
    obtain ⟨⟨k, hk⟩, hvsecret⟩ := Table.mem_find.mp hv
    have hvsecret : v.secretId = id' := (beq_iff_eq.mp hvsecret).trans hid
    by_cases hvactive : v.status = .active
    · obtain rfl := honly k v hk hvsecret hvactive
      obtain rfl := Option.some.inj (hr.symm.trans hk)
      omega
    · exact (h.versions.retired hk hvactive).1
  · rw [hid]
    rcases h.trail.trail id' with hnone | htrail
    · exact absurd hnone (h.trail.told ⟨_, hp, rfl, rfl⟩)
    · exact htrail

theorem resolved_of_allStored {c : (metadataPlatform τ).Config} (h : allStored c = true) {pid : Nat}
    (hlt : pid < c.procs.length) : ∃ call b, c.proc pid = some ⟨call, .settled (.ok b)⟩ := by
  have hdone := List.all_eq_true.mp h _ (List.getElem_mem hlt)
  unfold Config.proc
  rw [List.getElem?_eq_getElem hlt]
  split at hdone
  · next call b hp => exact ⟨call, b, by rw [hp]; rfl⟩
  · cases hdone

/-- Where all calls have resolved, no step failed. -/
theorem clean_of_allStored {w : World τ} {as : List (metadataPlatform τ).Action}
    {c : (metadataPlatform τ).Config} (hrun : run (Config.init w) as = some c)
    (hstored : allStored c = true) (horder : Always inOrder c.past) : Throughout Clean c.past := by
  obtain ⟨phases, hfailed, htracks⟩ := Discipline.sound metadata_obeyed failed_inductive
    (fun _ _ _ h => nomatch h) hrun (throughout_of_split fun _ _ _ _ => trivial)
  have hnumbered := numbered_of_run (Numbered.init w) as hrun
  refine throughout_of_split fun newer e older heq => ⟨?_, ?_⟩
  · rw [heq] at horder
    exact Throughout.split newer horder
  · have hmem : e ∈ c.past := heq ▸ List.mem_append_right _ List.mem_cons_self
    cases e with
    | stopped pid call =>
      obtain ⟨hlt, hgone⟩ := gone_of_stopped hrun hmem
      obtain ⟨_, _, hproc⟩ := resolved_of_allStored hstored hlt
      rw [hgone] at hproc
      cases hproc
    | ran pid step =>
      refine ⟨pid, step, rfl, fun err hres => ?_⟩
      have hcall := hnumbered.ran pid step hmem
      have hlt : pid < c.procs.length := by
        rw [hnumbered.length]
        exact (List.getElem?_eq_some_iff.mp hcall).1
      obtain ⟨_, _, hproc⟩ := resolved_of_allStored hstored hlt
      obtain ⟨ph, hph, hfinal⟩ := htracks.live pid _ hproc
      obtain ⟨-, head, first, version, htold⟩ := hfinal
      rcases hfailed pid step err hmem hres with hnone | ⟨input, hfailed⟩
      · rw [hph] at hnone
        cases hnone
      · obtain rfl := Option.some.inj (hph.symm.trans hfailed)
        cases htold

/-- **Calls that keep their order leave one head record of each secret**, with the highest
version, this version alone active, and one trail of events. -/
theorem recordStored_in_order {w : World τ} (hempty : w.secretMetadata = {})
    {as : List (metadataPlatform τ).Action} {c : (metadataPlatform τ).Config}
    (hrun : run (Config.init w) as = some c) (hstored : allStored c = true)
    (horder : Always inOrder c.past) :
    ∀ input ∈ started as, ∃ head, RecordedIn c.world.secretMetadata (started as) input head := by
  obtain ⟨phases, hkept, htracks⟩ := storeKept_of_run hempty hrun
    (clean_of_allStored hrun hstored horder)
  have hnumbered : Numbered (started as) c := by
    simpa using numbered_of_run (Numbered.init w) as hrun
  -- every process of the pool has told of its call
  have hproc : ∀ {p}, p < c.procs.length → ∃ call head first version,
      (started as)[p]? = some call ∧ phases p = some ⟨call, .told head first version⟩ := by
    intro p hlt
    obtain ⟨call, b, hp⟩ := resolved_of_allStored hstored hlt
    obtain ⟨⟨input, stage⟩, hph, hinput, head, first, version, hstage⟩ := htracks.live p _ hp
    obtain rfl : input = call := hinput
    obtain rfl : stage = .told head first version := hstage
    exact ⟨input, head, first, version, hnumbered.proc p _ hp, hph⟩
  have hlive : ∀ {p s}, phases p = some s → p < c.procs.length := by
    intro p s hs
    obtain ⟨_, hp, -⟩ := htracks.standing hs
    exact proc_lt hp
  refine recordedIn_of_told hkept ?_ ?_ ?_
  · intro p input stage hs
    obtain ⟨call, head, first, version, hcall, hph⟩ := hproc (hlive hs)
    obtain ⟨rfl, -⟩ := Standing.mk.inj (Option.some.inj (hs.symm.trans hph))
    exact List.mem_of_getElem? hcall
  · intro p input stage hs
    obtain ⟨call, head, first, version, hcall, hph⟩ := hproc (hlive hs)
    obtain ⟨-, rfl⟩ := Standing.mk.inj (Option.some.inj (hs.symm.trans hph))
    exact ⟨head, first, version, rfl⟩
  · intro input hinput
    obtain ⟨p, hlt, hget⟩ := List.mem_iff_getElem.mp hinput
    obtain ⟨call, head, first, version, hcall, hph⟩ := hproc (hnumbered.length ▸ hlt)
    rw [List.getElem?_eq_getElem hlt, hget] at hcall
    obtain rfl := Option.some.inj hcall
    exact ⟨p, _, hph⟩

end runs

/-- A version of the secret `mail` of `acme`. -/
def mailVersion (version : Int) : SecretStoredRecord where
  tenantId := "acme"
  secretId := "mail"
  providerRef := "credential-ref:mail"
  version := version
  storedAt := "2026-01-01T00:00:00.000Z"
  principalId := "ada"
  purpose := "configure"

/-- Nothing is stored. -/
def nothingStored : World Nat := { clock := 0 }

/-- Two versions, recorded one after the other. -/
def storedInTurn : List (metadataPlatform Nat).Action :=
  [.spawn (mailVersion 1), .step 0 .proceed, .step 0 (.draw "head"), .step 0 .proceed,
    .step 0 (.draw "first"), .step 0 .proceed, .step 0 (.draw "created"), .step 0 .proceed,
    .spawn (mailVersion 2), .step 1 .proceed, .step 1 .proceed, .step 1 .proceed, .step 1 .proceed,
    .step 1 (.draw "second"), .step 1 .proceed, .step 1 (.draw "rotated"), .step 1 .proceed]

theorem storedInTurn_recorded : ∃ c : (metadataPlatform Nat).Config,
    run (Config.init nothingStored) storedInTurn = some c ∧
      ∃ head, RecordedIn c.world.secretMetadata (started storedInTurn) (mailVersion 1) head := by
  have hevaluated : ∃ c : (metadataPlatform Nat).Config,
      run (Config.init nothingStored) storedInTurn = some c ∧
        (allStored c && decide (Always inOrder c.past)) = true :=
    exists_of_run (by decide +kernel)
  obtain ⟨c, hrun, hkept⟩ := hevaluated
  obtain ⟨hstored, horder⟩ := (Bool.and_eq_true ..).mp hkept
  refine ⟨c, hrun, ?_⟩
  exact recordStored_in_order rfl hrun hstored (of_decide_eq_true horder) (mailVersion 1)
    (by decide +kernel)

/-- Two versions at once: both calls find no head record. -/
def storedAtOnce : List (metadataPlatform Nat).Action :=
  [.spawn (mailVersion 1), .spawn (mailVersion 2), .step 0 .proceed, .step 1 .proceed,
    .step 0 (.draw "one"), .step 0 .proceed, .step 0 (.draw "first"), .step 0 .proceed,
    .step 0 (.draw "created"), .step 0 .proceed, .step 1 (.draw "other"), .step 1 .proceed,
    .step 1 (.draw "second"), .step 1 .proceed, .step 1 (.draw "also created"), .step 1 .proceed]

/-- **Two versions stored at once make two head records.** -/
theorem storedAtOnce_two_heads : ∃ c : (metadataPlatform Nat).Config,
    run (Config.init nothingStored) storedAtOnce = some c ∧ allStored c = true ∧
      (c.world.secretMetadata.heads "acme" "mail").length = 2 ∧
      ¬ ∃ head, RecordedIn c.world.secretMetadata (started storedAtOnce) (mailVersion 1) head := by
  have hevaluated : ∃ c : (metadataPlatform Nat).Config,
      run (Config.init nothingStored) storedAtOnce = some c ∧
        (allStored c && (c.world.secretMetadata.heads "acme" "mail").length == 2) = true :=
    exists_of_run (by decide +kernel)
  obtain ⟨c, hrun, hkept⟩ := hevaluated
  obtain ⟨hstored, htwo⟩ := (Bool.and_eq_true ..).mp hkept
  have htwo : (c.world.secretMetadata.heads "acme" "mail").length = 2 := beq_iff_eq.mp htwo
  refine ⟨c, hrun, hstored, htwo, ?_⟩
  rintro ⟨head, hrecorded⟩
  have hone : c.world.secretMetadata.heads "acme" "mail" = [head] := hrecorded.one
  rw [hone] at htwo
  cases htwo

end AppPort
