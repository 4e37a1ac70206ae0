import AppPort.Jobs.Conformance

/-!
# What a process knows of the record it works on

The base invariant of the job service. A process holds a copy of a stored record; the
stored one may have moved on since, but under the version of the copy it is the copy.
`JobStep.merged` is what this is for: whenever a conditional write goes through, the
record it merges into is the one its process held, so the phase of the process says
which record that was.
-/

namespace AppPort

open Effects Effects.Platform

variable {τ : Type} [Timestamp τ]

/-- Time has passed, and records have only moved along their versions. -/
structure Later (w w' : World τ) : Prop where
  clock : w.clock ≤ w'.clock
  jobs : ∀ id job, w.jobs.get id = some job → RecordFence w w' id job

/-- Records are stored under their ids, and have no lease owner: nothing writes one. -/
def Keyed (w : World τ) : Prop :=
  ∀ id job, w.jobs.get id = some job → job.id = id ∧ job.leaseOwner = none

/-- A copy of the record under `id`: the stored one is the same job and as new, and is
the copy while its version is the copy's. -/
structure Held (w : World τ) (id : String) (job : Job τ) : Prop where
  id_eq : job.id = id
  unowned : job.leaseOwner = none
  seen : ∃ stored, w.jobs.get id = some stored ∧ SameJob stored job ∧
    job.version ≤ stored.version ∧ (stored.version = job.version → stored = job)

omit [Timestamp τ] in
theorem Held.of_get {w : World τ} {id : String} {job : Job τ} (hw : Keyed w)
    (hget : w.jobs.get id = some job) : Held w id job := by
  obtain ⟨hid, howner⟩ := hw id job hget
  exact ⟨hid, howner, job, hget, SameJob.refl job, Nat.le_refl _, fun _ => rfl⟩

omit [Timestamp τ] in
/-- Nothing has happened to the records. -/
theorem RecordFence.refl {w w' : World τ} {id : String} {job : Job τ} (hw : w'.jobs = w.jobs)
    (hget : w.jobs.get id = some job) : RecordFence w w' id job :=
  ⟨job, by rw [hw, hget], SameJob.refl job, Nat.le_refl _, fun _ => rfl⟩

theorem Held.later {w w' : World τ} {id : String} {job : Job τ} (h : Held w id job)
    (hw : Later w w') : Held w' id job := by
  obtain ⟨stored, hget, hjob, hle, hsame⟩ := h.seen
  obtain ⟨stored', hget', hjob', hle', hsame'⟩ := hw.jobs id stored hget
  refine ⟨h.id_eq, h.unowned, stored', hget', hjob'.trans hjob, hle.trans hle', fun hv => ?_⟩
  -- the version did not move, so neither step moved it
  have hstored : stored.version = job.version := by omega
  have hstored' : stored'.version = stored.version := by omega
  rw [hsame' hstored', hsame hstored]

omit [Timestamp τ] in
/-- Under the version of the copy, the stored record is the copy. -/
theorem Held.current {w : World τ} {id : String} {job stored : Job τ} (h : Held w id job)
    (hget : w.jobs.get id = some stored) (hv : stored.version = job.version) : stored = job := by
  obtain ⟨stored', hget', -, -, hsame⟩ := h.seen
  rw [hget] at hget'
  obtain rfl := Option.some.inj hget'
  exact hsame hv

/-- What a phase says of the world. -/
def JobPhase.Sound (w : World τ) : JobPhase τ → Prop
  | .idle => True
  | .read id job | .owned id job => Held w id job
  | .judged id job t => Held w id job ∧ t ≤ w.clock
  | .counted id job => Held w id job ∧ JobService.isAbandoned w.clock job = true
  | .claimed id job | .started id job | .answered id job _ => Held w id job ∧ job.status = .running

/-- An abandoned job stays abandoned. -/
theorem JobService.isAbandoned_mono {t t' : τ} {job : Job τ}
    (h : JobService.isAbandoned t job = true) (hle : t ≤ t') :
    JobService.isAbandoned t' job = true := by
  unfold JobService.isAbandoned at *
  cases hl : job.leaseExpiresAt with
  | none => simp [hl] at h
  | some lease =>
    simp only [hl, Option.any_some, Bool.and_eq_true, decide_eq_true_eq] at h ⊢
    exact ⟨h.1, h.2.trans hle⟩

/-- An abandoned job is due. -/
theorem JobService.isAbandoned_due {t : τ} {job : Job τ}
    (h : JobService.isAbandoned t job = true) : job.status = .running ∧ isDue t job = true := by
  simp only [JobService.isAbandoned, Bool.and_eq_true, beq_iff_eq] at h
  refine ⟨h.1, ?_⟩
  simp only [isDue, h.1]
  exact h.2

theorem JobPhase.Sound.later {w w' : World τ} (hw : Later w w') {ph : JobPhase τ}
    (h : ph.Sound w) : ph.Sound w' := by
  cases ph with
  | idle => trivial
  | read id job => exact Held.later h hw
  | owned id job => exact Held.later h hw
  | judged id job t => exact ⟨h.1.later hw, h.2.trans hw.clock⟩
  | counted id job => exact ⟨h.1.later hw, JobService.isAbandoned_mono h.2 hw.clock⟩
  | claimed id job => exact ⟨h.1.later hw, h.2⟩
  | started id job => exact ⟨h.1.later hw, h.2⟩
  | answered id job unavailable => exact ⟨h.1.later hw, h.2⟩

/-! ## What a step does to the records -/

/-- A process creates fresh records only. -/
theorem JobStep.fresh {ph ph' : JobPhase τ} {step : (jobPlatform τ).Step} (h : JobStep ph step ph') :
    ∀ job ∈ step.op.newJobs, Fresh job := by
  cases h with
  | create _ hfresh => exact hfresh
  | quiet hop =>
    obtain ⟨call, op, res, before, after⟩ := step
    intro job hjob
    cases op with
    | jobs o =>
      cases o with
      | create | claim | updateJob => cases hop
      | get | list | listByStatus | listDue => cases hjob
    | commit ops => cases hop
    | authority | schedules | webhooks | notifications | apiKeys | configuration | secretMetadata | audit
    | host => cases hjob
  | _ =>
    intro job hjob
    cases hjob

theorem Later.of_exec {op : AppOp τ} {choice : Choice} {w w' : World τ}
    {res : Except JsError (op.Out τ)} (h : op.exec choice w = some (res, w')) : Later w w' :=
  ⟨(exec_clock h).ge, exec_fence_jobs h⟩

/-- The environment leaves the jobs alone. -/
theorem jobEnv_jobs {move : JobEnv τ} {w w' : World τ} (h : jobEnv move w = some w') :
    w'.jobs = w.jobs := by
  cases move with
  | tick t =>
    simp only [jobEnv] at h
    split at h
    · cases h
      rfl
    · cases h
  | others f =>
    cases h
    rfl

/-- And the schedules. -/
theorem jobEnv_schedules {move : JobEnv τ} {w w' : World τ} (h : jobEnv move w = some w') :
    w'.schedules = w.schedules := by
  cases move with
  | tick t =>
    simp only [jobEnv] at h
    split at h
    · cases h
      rfl
    · cases h
  | others f =>
    cases h
    rfl

theorem Later.of_env {move : JobEnv τ} {w w' : World τ} (h : jobEnv move w = some w') :
    Later w w' := by
  refine ⟨?_, fun _ _ => .refl (jobEnv_jobs h)⟩
  cases move with
  | tick t =>
    simp only [jobEnv] at h
    split at h
    · next hle =>
      cases h
      exact hle
    · cases h
  | others f =>
    cases h
    exact le_refl _

theorem Keyed.step {ph ph' : JobPhase τ} {step : (jobPlatform τ).Step} {choice : Choice}
    (hw : Keyed step.before) (hstep : JobStep ph step ph')
    (hexec : AppOp.exec step.op choice step.before = some (step.res, step.after)) :
    Keyed step.after := by
  intro id job hget
  rcases exec_job hexec id with hsame | ⟨new, hnew, hid, -, hget'⟩ | ⟨old, u, -, hold, hget'⟩
  · exact hw id job (hsame.symm.trans hget)
  · rw [hget] at hget'
    obtain rfl := Option.some.inj hget'
    exact ⟨hid, (hstep.fresh job hnew).leaseOwner⟩
  · rw [hget] at hget'
    obtain rfl := Option.some.inj hget'
    exact hw id old hold

theorem Keyed.env {move : JobEnv τ} {w w' : World τ} (hw : Keyed w)
    (h : jobEnv move w = some w') : Keyed w' := by
  intro id job hget
  rw [jobEnv_jobs h] at hget
  exact hw id job hget

/-- The phase a step leads to is sound of the world it leaves. -/
theorem JobStep.sound {ph ph' : JobPhase τ} {step : (jobPlatform τ).Step} {choice : Choice}
    (hstep : JobStep ph step ph') (hw : Keyed step.before) (hph : ph.Sound step.before)
    (hexec : AppOp.exec step.op choice step.before = some (step.res, step.after)) :
    ph'.Sound step.after := by
  have hlater := Later.of_exec hexec
  have hw' := hw.step hstep hexec
  cases hstep with
  | quiet => exact hph.later hlater
  | create => exact hph.later hlater
  | exhaust | giveUp | reset => trivial
  | settle => exact hph.later hlater
  | start => exact hph.later hlater
  | answer => exact hph.later hlater
  | fetch =>
    obtain ⟨hget, -⟩ := exec_get hexec
    exact (Held.of_get hw hget).later hlater
  | own =>
    obtain ⟨hget, -⟩ := exec_get hexec
    exact (Held.of_get hw hget).later hlater
  | judge hnow =>
    subst hnow
    exact ⟨Held.later hph hlater, hlater.clock⟩
  | @count call tenantId id job t u res before after ph' habandoned _ hstatus _ hlease hto =>
    subst hto
    match res with
    | .error e => trivial
    | .ok none => trivial
    | .ok (some job') =>
      obtain ⟨old, hget, hv, hnew, hget'⟩ := exec_updateJob hexec
      obtain rfl := hph.1.current hget hv
      refine ⟨Held.of_get hw' hget', ?_⟩
      have hnow := JobService.isAbandoned_mono habandoned (hph.2.trans hlater.clock)
      simpa [JobService.isAbandoned, hnew, hstatus, hlease] using hnow
  | @claim call tenantId id job lease res before after ph ph' hfrom hto =>
    subst hto
    match res with
    | .error e => trivial
    | .ok none => trivial
    | .ok (some job') =>
      obtain ⟨old, -, -, hnew, hget'⟩ := exec_claim hexec
      refine ⟨Held.of_get hw' hget', ?_⟩
      rw [hnew]
      rfl

/-- **The base invariant.** Records are keyed, and every phase is sound. -/
def JobBase (w : World τ) (_ : (jobPlatform τ).History) (phases : (jobProtocol τ).Phases) : Prop :=
  Keyed w ∧ ∀ q phq, phases q = some phq → JobPhase.Sound w phq

theorem jobBase_local (cond : (jobPlatform τ).History → (jobPlatform τ).Event → Prop) :
    (jobProtocol τ).LocalOver cond (fun _ _ _ => True) (fun w _ => Keyed w)
      (fun w _ _ ph => JobPhase.Sound w ph) where
  spawn _ _ _ := trivial
  good h := by
    obtain ⟨choice, hexec⟩ := h.exec
    exact h.good.step h.next hexec
  own h := by
    obtain ⟨choice, hexec⟩ := h.exec
    exact h.next.sound h.good h.own hexec
  other h _ hq := by
    obtain ⟨choice, hexec⟩ := h.exec
    exact (h.sound _ _ hq).later (Later.of_exec hexec)
  stopGood hw _ := hw
  stopOther _ h := h
  envGood _ hw henv := hw.env henv
  envSound _ _ h henv := JobPhase.Sound.later (Later.of_env henv) h

theorem jobBase (cond : (jobPlatform τ).History → (jobPlatform τ).Event → Prop) :
    (jobProtocol τ).Inductive cond JobBase := (jobBase_local cond).toInductive

/-! ## Where a write goes through -/

/-- **Which write changed a record.** The record `job` was merged with `u` by a process
that held exactly `job`, on its way from one phase to the next. -/
inductive Merged (id : String) (job : Job τ) (u : JobUpdate τ) : JobPhase τ → JobPhase τ → Prop where
  | exhausted {t : τ} (habandoned : JobService.isAbandoned t job = true)
    (hstatus : u.status = some .failed) (hcount : u.attemptCount = some (job.attemptCount + 1)) :
    Merged id job u (.judged id job t) .idle
  | counted {t : τ} {ph' : JobPhase τ} (habandoned : JobService.isAbandoned t job = true)
    (hmore : ((job.attemptCount + 1 : Nat) : Int) < job.maxAttempts) (hstatus : u.status = none)
    (hcount : u.attemptCount = some (job.attemptCount + 1))
    (hto : ph' = .idle ∨ ph' = .counted id (u.written job)) :
    Merged id job u (.judged id job t) ph'
  | claimed {ph ph' : JobPhase τ}
    (hfrom : ph = .counted id job ∨ ∃ t, ph = .judged id job t ∧
      JobService.isAbandoned t job = false ∧ (job.status = .running → job.leaseOwner ≠ none))
    (hstatus : u.status = some .running) (hcount : u.attemptCount = none)
    (hto : ph' = .idle ∨ ph' = .claimed id (u.written job)) : Merged id job u ph ph'
  | gaveUp (hu : Settles job u) (hstatus : u.status ≠ some .completed) :
    Merged id job u (.claimed id job) .idle
  | settled {unavailable : Bool} (hu : Settles job u)
    (huncounted : u.status = some .retrying → u.attemptCount = none → unavailable = true) :
    Merged id job u (.answered id job unavailable) (.answered id job unavailable)
  | reset (hu : u = JobService.resetUpdate) : Merged id job u (.owned id job) .idle

theorem JobStep.merged {ph ph' : JobPhase τ} {step : (jobPlatform τ).Step} {choice : Choice}
    {id : String} {job : Job τ} {u : JobUpdate τ} (hstep : JobStep ph step ph')
    (hph : ph.Sound step.before)
    (hexec : AppOp.exec step.op choice step.before = some (step.res, step.after))
    (hold : step.before.jobs.get id = some job)
    (hop : (∃ tenantId, step.op = .jobs (.updateJob tenantId id job.version u)) ∨
      ∃ tenantId lease, step.op = .jobs (.claim tenantId id job.version lease) ∧
        u = claimUpdate step.before.clock lease) :
    Merged id job u ph ph' := by
  cases hstep with
  | quiet hquiet =>
    obtain ⟨call, op, res, before, after⟩ := step
    rcases hop with ⟨tenantId, rfl⟩ | ⟨tenantId, lease, rfl, -⟩ <;> cases hquiet
  | create hcreate _ =>
    rcases hcreate with ⟨new, rfl⟩ | ⟨ops, rfl⟩ <;>
      rcases hop with ⟨tenantId, hop⟩ | ⟨tenantId, lease, hop, -⟩ <;> cases hop
  | fetch | own | judge | start | answer =>
    rcases hop with ⟨tenantId, hop⟩ | ⟨tenantId, lease, hop, -⟩ <;> cases hop
  | @exhaust call tenantId id' job' t u' res before after habandoned hstatus hcount =>
    rcases hop with ⟨tenantId, hop⟩ | ⟨tenantId, lease, hop, -⟩
    · injection hop with hop
      injection hop with _ hid hv hu
      subst hid hu
      obtain rfl := hph.1.current hold hv.symm
      exact .exhausted habandoned hstatus hcount
    · cases hop
  | @count call tenantId id' job' t u' res before after ph'' habandoned hmore hstatus hcount hlease hto =>
    rcases hop with ⟨tenantId, hop⟩ | ⟨tenantId, lease, hop, -⟩
    · injection hop with hop
      injection hop with _ hid hv hu
      subst hid hu
      obtain rfl := hph.1.current hold hv.symm
      refine .counted habandoned hmore hstatus hcount ?_
      subst hto
      match res with
      | .error e => exact .inl rfl
      | .ok none => exact .inl rfl
      | .ok (some new) =>
        obtain ⟨old, hget, -, hnew, -⟩ := exec_updateJob hexec
        rw [hold] at hget
        obtain rfl := Option.some.inj hget
        exact .inr (congrArg _ hnew)
    · cases hop
  | @claim call tenantId id' job' lease' res before after ph'' ph''' hfrom hto =>
    rcases hop with ⟨tenantId, hop⟩ | ⟨tenantId, lease, hop, hu⟩
    · cases hop
    · injection hop with hop
      injection hop with _ hid hv hlease
      subst hid hlease
      have hheld : Held before id' job' := by
        rcases hfrom with rfl | ⟨t, rfl, -⟩
        · exact hph.1
        · exact hph.1
      obtain rfl := hheld.current hold hv.symm
      subst hu
      refine .claimed hfrom rfl rfl ?_
      subst hto
      match res with
      | .error e => exact .inl rfl
      | .ok none => exact .inl rfl
      | .ok (some new) =>
        obtain ⟨old, hget, -, hnew, -⟩ := exec_claim hexec
        rw [hold] at hget
        obtain rfl := Option.some.inj hget
        exact .inr (congrArg _ hnew)
  | @giveUp call tenantId id' key job' u' res before after hkey hu hstatus =>
    rcases hop with ⟨tenantId, hop⟩ | ⟨tenantId, lease, hop, -⟩
    · injection hop with hop
      injection hop with _ hid hv hu'
      have hkey : key = id' := hkey.elim (fun h => h) fun h => h.trans hph.1.id_eq
      subst hid hu' hkey
      obtain rfl := hph.1.current hold hv.symm
      exact .gaveUp hu hstatus
    · cases hop
  | @settle call tenantId id' key job' unavailable u' res before after hkey hu huncounted =>
    rcases hop with ⟨tenantId, hop⟩ | ⟨tenantId, lease, hop, -⟩
    · injection hop with hop
      injection hop with _ hid hv hu'
      have hkey : key = id' := hkey.elim (fun h => h) fun h => h.trans hph.1.id_eq
      subst hid hu' hkey
      obtain rfl := hph.1.current hold hv.symm
      exact .settled hu huncounted
    · cases hop
  | @reset call tenantId id' key job' res before after hkey =>
    rcases hop with ⟨tenantId, hop⟩ | ⟨tenantId, lease, hop, -⟩
    · injection hop with hop
      injection hop with _ hid hv hu'
      have hkey : key = id' := hkey.elim (fun h => h) fun h => h.trans (Held.id_eq hph)
      subst hid hkey
      obtain rfl := Held.current hph hold hv.symm
      exact .reset hu'.symm
    · cases hop

end AppPort
