import AppPort.Jobs.Settlement

/-!
# When settlements are audited

The invariant of the settlement protocol: the ledger of every process is kept, as long
as every settlement finds its claim as it was made exactly when it is one of those that
are audited. A write under a superseded version changes nothing in any run.
-/

namespace AppPort

open Effects Effects.Platform

variable {τ : Type} [Timestamp τ]

/-! ## The condition -/

/-- The record stands at the version. -/
def isCurrent (w : World τ) (id : String) (version : Nat) : Bool :=
  (w.jobs.get id).any fun job => job.version == version

/-- The settlement is one of those that are never audited: the run is put back, or the
host has no handler for the job. -/
def settlesSilently (host : JobHost) (w : World τ) (id : String) (u : JobUpdate τ) : Bool :=
  u.putsBack || (w.jobs.get id).any fun job => !decide (job.type ∈ host.registered)

/-- What a step may be for the ledger to be kept. A claim that is settled silently has
been superseded, and one that is settled and audited has not; neither an audit row nor a
write that went through is reported as failed; and no process stops with a move to
audit. -/
def settlesAsClaimed (older : (settlementPlatform τ).History) : (settlementPlatform τ).Event → Bool
  | .ran _ ⟨_, .audit (.job event), res, _, _⟩ => event.settlement.isNone || res.isOk
  | .ran pid ⟨call, .jobs (.updateJob _ id version u), res, before, after⟩ =>
    u.settlement.isNone ||
      (res.isOk || !changed id before after) &&
      (!holdsClaim (ownSteps pid older) ||
        isCurrent before id version != settlesSilently call.host before id u)
  | .ran _ _ => true
  | .stopped pid _ => ledger (ownSteps pid older) == some none

/-! ## What a settling write does -/

omit [Timestamp τ] in
theorem isCurrent_iff {w : World τ} {id : String} {v : Nat} :
    isCurrent w id v = true ↔ ∃ job, w.jobs.get id = some job ∧ job.version = v := by
  simp [isCurrent, Option.any_eq_true]

/-- A write under a version that was superseded changes nothing. -/
theorem exec_updateJob_stale {tenantId id : String} {v : Nat} {u : JobUpdate τ} {choice : Choice}
    {w w' : World τ} {res : Except JsError (Option (Job τ))}
    (h : (AppOp.jobs (.updateJob tenantId id v u)).exec choice w = some (res, w'))
    (hstale : isCurrent w id v = false) : w'.jobs = w.jobs := by
  have hnot : ¬ ∃ job, w.jobs.get id = some job ∧ job.version = v := by
    rw [← isCurrent_iff, hstale]
    simp
  simp only [AppOp.exec, JobOp.exec] at h
  rcases hu : w.jobs.updateIfVersion id v u.apply with ⟨r, jobs'⟩
  rw [hu] at h
  have hjobs : jobs' = w.jobs := by
    rcases Table.updateIfVersion_eq hu with ⟨job, hget, hv, -, -⟩ | ⟨-, hsame⟩
    · exact absurd ⟨job, hget, hv⟩ hnot
    · exact hsame
  subst hjobs
  rcases stored_cases h with ⟨-, rfl⟩ | ⟨_, -, rfl | rfl⟩ <;> rfl

/-- A write that goes through, under the tenant of the record, answers with the record. -/
theorem exec_updateJob_current {tenantId id : String} {u : JobUpdate τ} {choice : Choice}
    {w w' : World τ} {job : Job τ} {res : Except JsError (Option (Job τ))}
    (h : (AppOp.jobs (.updateJob tenantId id job.version u)).exec choice w = some (res, w'))
    (hget : w.jobs.get id = some job) (htenant : job.tenantId = tenantId) : res ≠ .ok none := by
  simp only [AppOp.exec, JobOp.exec] at h
  rcases stored_cases h with ⟨hres, -⟩ | ⟨_, hres, -⟩
  · rw [hres]
    subst htenant
    simp [Table.updateIfVersion, hget, ofTenant, JobUpdate.apply, withVersion_job]
  · rw [hres]
    simp

/-- A record is found under its own tenant. -/
theorem exec_get_tenant {tenantId id : String} {choice : Choice} {w w' : World τ} {job : Job τ}
    (h : (AppOp.jobs (.get tenantId id)).exec choice w = some (.ok (some job), w')) :
    job.tenantId = tenantId := by
  simp only [AppOp.exec, JobOp.exec] at h
  rcases stored_cases h with ⟨hres, -⟩ | ⟨message, hres, -⟩
  · have hfound := (Option.filter_eq_some_iff.mp (Except.ok.inj hres).symm).2
    exact beq_iff_eq.mp hfound
  · cases hres

omit [Timestamp τ] in
theorem changed_of_version {id : String} {w w' : World τ} {job job' : Job τ}
    (hget : w.jobs.get id = some job) (hget' : w'.jobs.get id = some job')
    (hv : job'.version = job.version + 1) : changed id w w' = true := by
  simp [changed, hget, hget', hv]

omit [Timestamp τ] in
theorem not_changed_of_same {id : String} {w w' : World τ} (h : w'.jobs = w.jobs) :
    changed id w w' = false := by
  simp [changed, h]

/-! ## What a step does to the ledger -/

/-- Nothing is moved and nothing is audited. -/
theorem ledger_quiet {step : (settlementPlatform τ).Step} {own : List (settlementPlatform τ).Step}
    (hcommitted : committed step = none) (haudited : audited step = none) :
    ledger (step :: own) = ledger own := by
  simp only [ledger, hcommitted, haudited]
  cases hown : ledger own with
  | none => rfl
  | some owed => cases owed <;> rfl

theorem committed_plain {step : (settlementPlatform τ).Step} (h : step.op.isPlain = true) :
    committed step = none := by
  obtain ⟨call, op, res, before, after⟩ := step
  cases op with
  | jobs o =>
    cases o with
    | updateJob tenantId id v u =>
      have hu : u.settlement = none := Option.isNone_iff_eq_none.mp h
      simp [committed, hu]
    | _ => rfl
  | _ => rfl

theorem audited_plain {step : (settlementPlatform τ).Step} (h : step.op.isPlain = true) :
    audited step = none := by
  obtain ⟨call, op, res, before, after⟩ := step
  cases op with
  | audit o =>
    cases o with
    | job event =>
      have hevent : event.settlement = none := Option.isNone_iff_eq_none.mp h
      cases res with
      | ok _ => exact hevent
      | error _ => rfl
    | _ => rfl
  | _ => rfl

theorem holdsClaim_plain {step : (settlementPlatform τ).Step} (h : step.op.isPlain = true)
    (own : List (settlementPlatform τ).Step) : holdsClaim (step :: own) = holdsClaim own := by
  obtain ⟨call, op, res, before, after⟩ := step
  cases op with
  | jobs o =>
    cases o with
    | get | claim => cases h
    | _ => rfl
  | _ => rfl

/-! ## The invariant -/

/-- What a phase says of the world and of what its process did. -/
def SettlePhase.Sound (w : World τ) (own : List (settlementPlatform τ).Step) : SettlePhase τ → Prop
  | .free => ledger own = some none
  | .read id tenantId job => ledger own = some none ∧ Held w id job ∧ job.tenantId = tenantId ∧
      holdsClaim own = false
  | .claimed id job => ledger own = some none ∧ Held w id job ∧ holdsClaim own = true
  | .owes subject id k => subject = id ∧ ledger own = some (some (id, k)) ∧
      ∃ step ∈ own, committed step = some (id, k)
  | .audited subject id k => subject = id ∧ ledger own = some none ∧
      ∃ step ∈ own, committed step = some (id, k)
  | .astray => False

theorem SettlePhase.Sound.later {w w' : World τ} {own : List (settlementPlatform τ).Step}
    {ph : SettlePhase τ} (h : ph.Sound w own) (hw : Later w w') : ph.Sound w' own := by
  cases ph with
  | read id tenantId job => exact ⟨h.1, h.2.1.later hw, h.2.2⟩
  | claimed id job => exact ⟨h.1, h.2.1.later hw, h.2.2⟩
  | free | owes | audited | astray => exact h

/-- The phase a plain step leaves as it is. -/
theorem SettlePhase.Sound.plain {step : (settlementPlatform τ).Step}
    {own : List (settlementPlatform τ).Step} {ph : SettlePhase τ} (h : ph.Sound step.before own)
    (hop : step.op.isPlain = true) (hw : Later step.before step.after) :
    ph.Sound step.after (step :: own) := by
  have hledger : ledger (step :: own) = ledger own :=
    ledger_quiet (committed_plain hop) (audited_plain hop)
  have hclaim := holdsClaim_plain hop own
  have hlater := h.later hw
  cases ph with
  | free => exact hledger.trans hlater
  | read id tenantId job => exact ⟨hledger.trans hlater.1, hlater.2.1, hlater.2.2.1, hclaim.trans hlater.2.2.2⟩
  | claimed id job => exact ⟨hledger.trans hlater.1, hlater.2.1, hclaim.trans hlater.2.2⟩
  | owes subject id k =>
    obtain ⟨hsubject, howed, st, hst, hmoved⟩ := hlater
    exact ⟨hsubject, hledger.trans howed, st, List.mem_cons_of_mem _ hst, hmoved⟩
  | audited subject id k =>
    obtain ⟨hsubject, howed, st, hst, hmoved⟩ := hlater
    exact ⟨hsubject, hledger.trans howed, st, List.mem_cons_of_mem _ hst, hmoved⟩
  | astray => exact hlater

/-- A read is neither a move nor an audit. -/
theorem ledger_get (call : SettlementCall) (tenantId id : String)
    (res : Except JsError (Option (Job τ))) (before after : World τ)
    (own : List (settlementPlatform τ).Step) :
    ledger (⟨call, .jobs (.get tenantId id), res, before, after⟩ :: own) = ledger own :=
  ledger_quiet rfl rfl

/-- Nor is a claim. -/
theorem ledger_claim (call : SettlementCall) (tenantId id : String) (v : Nat) (lease : τ)
    (res : Except JsError (Option (Job τ))) (before after : World τ)
    (own : List (settlementPlatform τ).Step) :
    ledger (⟨call, .jobs (.claim tenantId id v lease), res, before, after⟩ :: own) = ledger own :=
  ledger_quiet rfl rfl

section write

variable {call : SettlementCall} {tenantId id : String} {v : Nat} {u : JobUpdate τ}
  {res : Except JsError (Option (Job τ))} {before after : World τ}
  {own : List (settlementPlatform τ).Step}

/-- A write that changed nothing moves nothing. -/
theorem ledger_unchanged (h : changed id before after = false) :
    ledger (⟨call, .jobs (.updateJob tenantId id v u), res, before, after⟩ :: own) = ledger own := by
  refine ledger_quiet ?_ rfl
  simp [committed, h]

/-- A write that settled the record is owed an audit. -/
theorem committed_changed {k : Settlement} (h : changed id before after = true)
    (hu : u.settlement = some k) :
    committed (τ := τ) ⟨call, .jobs (.updateJob tenantId id v u), res, before, after⟩ =
      some (id, k) := by
  simp [committed, h, hu]

theorem ledger_changed {k : Settlement} (h : changed id before after = true)
    (hu : u.settlement = some k) (hown : ledger own = some none) :
    ledger (⟨call, .jobs (.updateJob tenantId id v u), res, before, after⟩ :: own) =
      some (some (id, k)) := by
  have haudited : audited (τ := τ)
      ⟨call, .jobs (.updateJob tenantId id v u), res, before, after⟩ = none := rfl
  simp only [ledger, hown, committed_changed h hu, haudited]

/-- An answer that is a record is the one that was stored, and it was the expected one. -/
theorem changed_of_answer {choice : Choice} {job' : Job τ}
    (h : (AppOp.jobs (.updateJob tenantId id v u)).exec choice before = some (.ok (some job'), after)) :
    changed id before after = true ∧ isCurrent before id v = true := by
  obtain ⟨job, hget, hv, hnew, hget'⟩ := exec_updateJob h
  refine ⟨changed_of_version hget hget' ?_, isCurrent_iff.mpr ⟨job, hget, hv⟩⟩
  rw [hnew, written_version]

/-- Unless it went through, a write that was not reported as failed changed nothing. -/
theorem unchanged_of_stale {choice : Choice}
    (h : (AppOp.jobs (.updateJob tenantId id v u)).exec choice before = some (res, after))
    (hstale : isCurrent before id v = false) : changed id before after = false :=
  not_changed_of_same (exec_updateJob_stale h hstale)

end write

omit [Timestamp τ] in
/-- Under the version of a copy stands the copy. -/
theorem Held.of_current {w : World τ} {id : String} {job : Job τ} (h : Held w id job)
    (hcurrent : isCurrent w id job.version = true) : w.jobs.get id = some job := by
  obtain ⟨stored, hget, hv⟩ := isCurrent_iff.mp hcurrent
  rw [hget, h.current hget hv]

omit [Timestamp τ] in
/-- A settlement is silent as its host has no handler for the copy, or as it is put back. -/
theorem settlesSilently_held {w : World τ} {id : String} {job : Job τ} (h : Held w id job)
    (host : JobHost) (u : JobUpdate τ) : settlesSilently host w id u =
      (u.putsBack || !decide (job.type ∈ host.registered)) := by
  obtain ⟨stored, hget, hsame, -, -⟩ := h.seen
  simp [settlesSilently, hget, hsame.type]

/-- What the condition says of a settling write. -/
theorem settlesAsClaimed_write {past : (settlementPlatform τ).History} {pid : Nat}
    {call : SettlementCall} {tenantId id : String} {v : Nat} {u : JobUpdate τ}
    {res : Except JsError (Option (Job τ))} {before after : World τ}
    (h : settlesAsClaimed past
      (.ran pid ⟨call, .jobs (.updateJob tenantId id v u), res, before, after⟩) = true)
    (hu : u.settlement.isSome) : (res.isOk = false → changed id before after = false) ∧
      (holdsClaim (ownSteps pid past) = true →
        isCurrent before id v = !settlesSilently call.host before id u) := by
  simp only [settlesAsClaimed, Bool.or_eq_true, Bool.and_eq_true, Option.isNone_iff_eq_none,
    Bool.not_eq_true'] at h
  rcases h with hnone | ⟨hres, hclaim⟩
  · rw [hnone] at hu
    cases hu
  · refine ⟨fun hfailed => ?_, fun hholds => ?_⟩
    · rcases hres with hok | hsame
      · rw [hok] at hfailed
        cases hfailed
      · exact hsame
    · rcases hclaim with hnot | hxor
      · rw [hholds] at hnot
        cases hnot
      · rw [bne_iff_ne] at hxor
        exact Bool.eq_not_of_ne hxor

section settling

variable {past : (settlementPlatform τ).History} {pid : Nat} {choice : Choice}
  {call : SettlementCall} {tenantId id : String} {job : Job τ} {u : JobUpdate τ} {k : Settlement}
  {res : Except JsError (Option (Job τ))} {before after : World τ}

theorem sound_exhaust (hu : u.settlement = some .failed)
    (hexec : (AppOp.jobs (.updateJob tenantId id job.version u)).exec choice before =
      some (res, after))
    (h : (SettlePhase.read id tenantId job).Sound before (ownSteps pid past))
    (hcond : settlesAsClaimed past (.ran pid
      ⟨call, .jobs (.updateJob tenantId id job.version u), res, before, after⟩) = true) :
    (SettlePhase.afterExhausted id res).Sound after
      (⟨call, .jobs (.updateJob tenantId id job.version u), res, before, after⟩ ::
        ownSteps pid past) := by
  obtain ⟨howed, hheld, htenant, -⟩ := h
  have hcond := settlesAsClaimed_write hcond (by rw [hu]; rfl)
  match res with
  | .ok (some stored) =>
    obtain ⟨hchanged, -⟩ := changed_of_answer hexec
    exact ⟨rfl, ledger_changed hchanged hu howed, _, List.mem_cons_self,
      committed_changed hchanged hu⟩
  | .ok none =>
    -- the record stands under its tenant, so the write would have answered with it
    have hstale : isCurrent before id job.version = false := by
      by_contra hcurrent
      have hget := hheld.of_current (Bool.not_eq_false _ ▸ hcurrent)
      exact exec_updateJob_current hexec hget htenant rfl
    exact (ledger_unchanged (unchanged_of_stale hexec hstale)).trans howed
  | .error e => exact (ledger_unchanged (hcond.1 rfl)).trans howed

theorem sound_settle (hu : u.settlement = some k) (hback : u.putsBack = false)
    (hhandled : job.type ∈ call.host.registered)
    (hexec : (AppOp.jobs (.updateJob job.tenantId job.id job.version u)).exec choice before =
      some (res, after))
    (h : (SettlePhase.claimed id job).Sound before (ownSteps pid past))
    (hcond : settlesAsClaimed past (.ran pid
      ⟨call, .jobs (.updateJob job.tenantId job.id job.version u), res, before, after⟩) = true) :
    (SettlePhase.afterLoud id job k res).Sound after
      (⟨call, .jobs (.updateJob job.tenantId job.id job.version u), res, before, after⟩ ::
        ownSteps pid past) := by
  obtain ⟨howed, hheld, hclaim⟩ := h
  have hid := hheld.id_eq
  have hcond := settlesAsClaimed_write hcond (by rw [hu]; rfl)
  match res with
  | .ok (some stored) =>
    obtain ⟨hchanged, -⟩ := changed_of_answer hexec
    exact ⟨hid.symm, ledger_changed hchanged hu howed, _, List.mem_cons_self,
      committed_changed hchanged hu⟩
  | .ok none =>
    -- the claim still stands, so the write would have answered with the record
    have hcurrent : isCurrent before job.id job.version = true := by
      rw [hcond.2 hclaim, hid, settlesSilently_held hheld, hback]
      simp [hhandled]
    have hget : before.jobs.get job.id = some job := by
      rw [hid] at hcurrent ⊢
      exact hheld.of_current hcurrent
    exact absurd rfl (exec_updateJob_current hexec hget rfl)
  | .error e =>
    refine ⟨(ledger_unchanged (hcond.1 rfl)).trans howed, hheld.later (Later.of_exec hexec), ?_⟩
    exact hclaim

theorem sound_silent (hu : u.settlement.isSome)
    (hsilent : u.putsBack = true ∨ job.type ∉ call.host.registered)
    (hexec : (AppOp.jobs (.updateJob tenantId id job.version u)).exec choice before =
      some (res, after))
    (h : (SettlePhase.claimed id job).Sound before (ownSteps pid past))
    (hcond : settlesAsClaimed past (.ran pid
      ⟨call, .jobs (.updateJob tenantId id job.version u), res, before, after⟩) = true) :
    (SettlePhase.afterSilent res).Sound after
      (⟨call, .jobs (.updateJob tenantId id job.version u), res, before, after⟩ ::
        ownSteps pid past) := by
  obtain ⟨howed, hheld, hclaim⟩ := h
  have hcond := settlesAsClaimed_write hcond hu
  have hstale : isCurrent before id job.version = false := by
    rw [hcond.2 hclaim, settlesSilently_held hheld]
    rcases hsilent with hback | hmissing
    · simp [hback]
    · simp [hmissing]
  match res with
  | .ok (some stored) =>
    obtain ⟨-, hcurrent⟩ := changed_of_answer hexec
    rw [hstale] at hcurrent
    cases hcurrent
  | .ok none => exact (ledger_unchanged (unchanged_of_stale hexec hstale)).trans howed
  | .error e => exact (ledger_unchanged (unchanged_of_stale hexec hstale)).trans howed

theorem sound_audit {subject : String} {event : JobAuditEvent τ} {res : Except JsError Unit}
    (hevent : event.settlement = some (id, k))
    (h : (SettlePhase.owes subject id k).Sound before (ownSteps pid past))
    (hcond : settlesAsClaimed past
      (.ran pid ⟨call, .audit (.job event), res, before, after⟩) = true) :
    (match res with
      | .ok _ => SettlePhase.audited subject id k
      | .error _ => SettlePhase.astray).Sound after
        (⟨call, .audit (.job event), res, before, after⟩ :: ownSteps pid past) := by
  obtain ⟨hsubject, howed, step, hstep, hmoved⟩ := h
  cases res with
  | ok _ =>
    refine ⟨hsubject, ?_, step, List.mem_cons_of_mem _ hstep, hmoved⟩
    have hcommitted : committed (τ := τ)
        ⟨call, .audit (.job event), .ok (), before, after⟩ = none := rfl
    have haudited : audited (τ := τ)
        ⟨call, .audit (.job event), .ok (), before, after⟩ = some (id, k) := hevent
    simp only [ledger, howed, hcommitted, haudited, if_true]
  | error e =>
    simp only [settlesAsClaimed, hevent] at hcond
    cases hcond

end settling

/-- **A step of the protocol keeps the ledger**, if it is what a step may be. -/
theorem SettleStep.sound {past : (settlementPlatform τ).History} {pid : Nat}
    {step : (settlementPlatform τ).Step} {choice : Choice} {ph ph' : SettlePhase τ}
    (hstep : SettleStep ph step ph') (hw : Keyed step.before) (hw' : Keyed step.after)
    (hexec : AppOp.exec step.op choice step.before = some (step.res, step.after))
    (h : ph.Sound step.before (ownSteps pid past))
    (hcond : settlesAsClaimed past (.ran pid step) = true) :
    ph'.Sound step.after (step :: ownSteps pid past) := by
  have hlater := Later.of_exec hexec
  cases hstep with
  | plain hop => exact h.plain hop hlater
  | stray => exact h.elim
  | @fetch _ call tenantId id res before after hph hplain =>
    have howed : ledger (ownSteps pid past) = some none := by
      cases ph with
      | free => exact h
      | read id tenantId job => exact h.1
      | claimed id job => exact h.1
      | audited subject id k => exact h.2.1
      | owes subject id k => exact hph.elim
      | astray => exact absurd rfl hplain
    match res with
    | .error e => exact (ledger_get ..).trans howed
    | .ok none => exact (ledger_get ..).trans howed
    | .ok (some job) =>
      obtain ⟨hget, hsame⟩ := exec_get hexec
      refine ⟨(ledger_get ..).trans howed, Held.of_get hw' (by rw [hsame, hget]), ?_, rfl⟩
      exact exec_get_tenant hexec
  | @claim call tenantId id v lease job res before after =>
    match res with
    | .error e => exact (ledger_claim ..).trans h.1
    | .ok none => exact (ledger_claim ..).trans h.1
    | .ok (some job') =>
      obtain ⟨old, -, -, -, hget'⟩ := exec_claim hexec
      exact ⟨(ledger_claim ..).trans h.1, Held.of_get hw' hget', rfl⟩
  | exhaust hu => exact sound_exhaust hu hexec h hcond
  | settle hu hback hhandled => exact sound_settle hu hback hhandled hexec h hcond
  | silent hu hsilent => exact sound_silent hu hsilent hexec h hcond
  | audit hevent => exact sound_audit hevent h hcond

/-! ## Every run -/

/-- Only a process that went astray creates a record. -/
theorem SettleStep.creates_nothing {step : (settlementPlatform τ).Step} {ph ph' : SettlePhase τ}
    (hstep : SettleStep ph step ph') (hph : ph ≠ .astray) : step.op.newJobs = [] := by
  cases hstep with
  | stray => exact absurd rfl hph
  | plain hop =>
    obtain ⟨call, op, res, before, after⟩ := step
    cases op with
    | jobs o =>
      cases o with
      | create => cases hop
      | _ => rfl
    | commit => cases hop
    | _ => rfl
  | _ => rfl

theorem Keyed.of_exec {op : AppOp τ} {choice : Choice} {w w' : World τ}
    {res : Except JsError (op.Out τ)} (hw : Keyed w) (hexec : op.exec choice w = some (res, w'))
    (hnew : op.newJobs = []) : Keyed w' := by
  intro id job hget
  rcases exec_job hexec id with hsame | ⟨new, hmem, -⟩ | ⟨old, u, -, hold, hget'⟩
  · exact hw id job (hsame.symm.trans hget)
  · rw [hnew] at hmem
    cases hmem
  · rw [hget] at hget'
    obtain rfl := Option.some.inj hget'
    exact hw id old hold

/-- Besides the calls, jobs are only added. -/
theorem settlementEnv_jobs {move : SettlementEnv τ} {w w' : World τ}
    (h : settlementEnv move w = some w') : w'.jobs = w.jobs ∨
      ∃ job : Job τ, job.leaseOwner = none ∧ w.jobs.get job.id = none ∧
        w'.jobs = w.jobs.put job.id job := by
  cases move with
  | tick t =>
    simp only [settlementEnv] at h
    split at h
    · cases h
      exact .inl rfl
    · cases h
  | create job =>
    simp only [settlementEnv] at h
    split at h
    · next howner =>
      obtain ⟨jobs, hjobs, rfl⟩ := Option.map_eq_some_iff.mp h
      obtain ⟨habsent, rfl⟩ := Table.insertAbsent_eq_some hjobs
      exact .inr ⟨job, Option.isNone_iff_eq_none.mp howner, habsent, rfl⟩
    · cases h
  | others f =>
    cases h
    exact .inl rfl

theorem settlementEnv_clock {move : SettlementEnv τ} {w w' : World τ}
    (h : settlementEnv move w = some w') : w.clock ≤ w'.clock := by
  cases move with
  | tick t =>
    simp only [settlementEnv] at h
    split at h
    · next hle =>
      cases h
      exact hle
    · cases h
  | create job =>
    simp only [settlementEnv] at h
    split at h
    · obtain ⟨jobs, -, rfl⟩ := Option.map_eq_some_iff.mp h
      exact le_refl _
    · cases h
  | others f =>
    cases h
    exact le_refl _

theorem Later.of_settlementEnv {move : SettlementEnv τ} {w w' : World τ}
    (h : settlementEnv move w = some w') : Later w w' := by
  refine ⟨settlementEnv_clock h, ?_⟩
  intro id job hget
  rcases settlementEnv_jobs h with hsame | ⟨new, -, habsent, hput⟩
  · exact .refl hsame hget
  · have hne : id ≠ new.id := by
      rintro rfl
      rw [hget] at habsent
      cases habsent
    have hget' : w'.jobs.get id = some job := by
      rw [hput, Table.get_put_other _ _ hne, hget]
    exact ⟨job, hget', SameJob.refl job, Nat.le_refl _, fun _ => rfl⟩

theorem Keyed.settlementEnv {move : SettlementEnv τ} {w w' : World τ} (hw : Keyed w)
    (h : settlementEnv move w = some w') : Keyed w' := by
  intro id job hget
  rcases settlementEnv_jobs h with hsame | ⟨new, howner, habsent, hput⟩
  · exact hw id job (by rw [← hsame, hget])
  · rw [hput] at hget
    by_cases hid : id = new.id
    · subst hid
      rw [Table.get_put_same] at hget
      obtain rfl := Option.some.inj hget
      exact ⟨rfl, howner⟩
    · rw [Table.get_put_other _ _ hid] at hget
      exact hw id job hget

/-- A write under a version that was superseded changes nothing. -/
def leavesSuperseded (_ : (settlementPlatform τ).History) : (settlementPlatform τ).Event → Prop
  | .ran _ ⟨_, .jobs (.updateJob _ id version _), _, before, after⟩ =>
    isCurrent before id version = false → after.jobs = before.jobs
  | _ => True

theorem leavesSuperseded_step {past : (settlementPlatform τ).History} {pid : Nat}
    {step : (settlementPlatform τ).Step} {choice : Choice}
    (hexec : AppOp.exec step.op choice step.before = some (step.res, step.after)) :
    leavesSuperseded past (.ran pid step) := by
  obtain ⟨call, op, res, before, after⟩ := step
  cases op with
  | jobs o =>
    cases o with
    | updateJob tenantId id v u => exact exec_updateJob_stale hexec
    | _ => trivial
  | _ => trivial

/-- A process that is gone owes nothing, and one that goes on is in a sound phase. -/
def SettlePhase.Stands (w : World τ) (own : List (settlementPlatform τ).Step) :
    Option (SettlePhase τ) → Prop
  | some ph => ph.Sound w own
  | none => ledger own = some none

theorem SettlePhase.Stands.later {w w' : World τ} {own : List (settlementPlatform τ).Step}
    {ph : Option (SettlePhase τ)} (h : SettlePhase.Stands w own ph) (hw : Later w w') :
    SettlePhase.Stands w' own ph := by
  cases ph with
  | none => exact h
  | some ph => exact SettlePhase.Sound.later h hw

/-- Every process stands. -/
def SettlesSoundly (w : World τ) (past : (settlementPlatform τ).History)
    (phases : (settlementProtocol τ).Phases) : Prop :=
  ∀ pid, SettlePhase.Stands w (ownSteps pid past) (phases pid)

theorem SettlesSoundly.live {w : World τ} {past : (settlementPlatform τ).History}
    {phases : (settlementProtocol τ).Phases} (h : SettlesSoundly w past phases) {pid : Nat}
    {ph : SettlePhase τ} (hph : phases pid = some ph) : ph.Sound w (ownSteps pid past) := by
  have hpid := h pid
  rw [hph] at hpid
  exact hpid

/-- One process moves on, and the others see that time passed. -/
theorem SettlesSoundly.move {w w' : World τ} {past past' : (settlementPlatform τ).History}
    {phases : (settlementProtocol τ).Phases} (h : SettlesSoundly w past phases) (hw : Later w w')
    {pid : Nat} {ph : Option (SettlePhase τ)}
    (hown : ∀ q, q ≠ pid → ownSteps q past' = ownSteps q past)
    (hph : SettlePhase.Stands w' (ownSteps pid past') ph) :
    SettlesSoundly w' past' (Discipline.Phases.move phases pid ph) := by
  intro q
  by_cases hq : q = pid
  · subst hq
    rw [Discipline.Phases.move_same]
    exact hph
  · rw [Discipline.Phases.move_other phases ph hq, hown q hq]
    exact (h q).later hw

theorem settles_inductive : (settlementProtocol τ).Inductive
    (fun older e => settlesAsClaimed older e = true)
    (fun w past phases => Keyed w ∧ SettlesSoundly w past phases) where
  spawn := by
    intro w past phases pid call _ h hnone _ hfresh
    refine ⟨h.1, h.2.move ⟨le_refl _, fun _ _ hget => .refl rfl hget⟩ (fun _ _ => rfl) ?_⟩
    rw [ownSteps_fresh hfresh]
    rfl
  step := by
    intro past phases pid ph ph' step choice _ h hph hexec hnext hcond
    have hsound := h.2.live hph
    have hastray : ph ≠ .astray := by
      rintro rfl
      exact hsound
    have hkeyed := h.1.of_exec hexec (hnext.creates_nothing hastray)
    refine ⟨hkeyed, h.2.move (Later.of_exec hexec) ?_ ?_⟩
    · intro q hq
      exact ownSteps_other step past (Ne.symm hq)
    · rw [ownSteps_same]
      exact hnext.sound h.1 hkeyed hexec hsound hcond
  stop := by
    intro w past phases pid ph call _ h _ hcond
    refine ⟨h.1, h.2.move ⟨le_refl _, fun _ _ hget => .refl rfl hget⟩ (fun _ _ => rfl) ?_⟩
    exact beq_iff_eq.mp hcond
  env := by
    intro w w' past phases move _ h henv
    have hlater := Later.of_settlementEnv henv
    exact ⟨h.1.settlementEnv henv, fun pid => (h.2 pid).later hlater⟩

theorem leavesSuperseded_inductive : (settlementProtocol τ).Inductive (fun _ _ => True)
    (fun _ past _ => Throughout leavesSuperseded past) where
  spawn _ _ h _ _ _ := h
  step _ _ _ h _ hexec _ _ := ⟨leavesSuperseded_step hexec, h⟩
  stop _ _ h _ _ := ⟨trivial, h⟩
  env _ _ h _ := h

theorem SettlePhase.Sound.kept {w : World τ} {own : List (settlementPlatform τ).Step}
    {ph : SettlePhase τ} (h : ph.Sound w own) :
    ∃ owed, ledger own = some owed ∧ (ph.Even → owed = none) := by
  cases ph with
  | free => exact ⟨none, h, fun _ => rfl⟩
  | read id tenantId job => exact ⟨none, h.1, fun _ => rfl⟩
  | claimed id job => exact ⟨none, h.1, fun _ => rfl⟩
  | owes subject id k => exact ⟨_, h.2.1, fun heven => heven.elim⟩
  | audited subject id k => exact ⟨none, h.2.1, fun _ => rfl⟩
  | astray => exact h.elim

/-- **Settlements are fenced, and audited when they settle what was claimed.** In every
run of executions and resets of jobs over a store that starts without jobs, a write under
a version that was superseded changes nothing. If moreover no claim is superseded before
it is settled, and none is settled silently, then every process audits each transition it
commits, right after it and as what it is, and audits nothing else; only a process that is
still under way may owe a row; and an execution that answers `true` has moved its job to
completed. -/
theorem settlements_are_audited {w : World τ} (hw : w.jobs = Table.empty)
    {as : List (settlementPlatform τ).Action} {c : (settlementPlatform τ).Config}
    (hrun : (settlementPlatform τ).run (Config.init w) as = some c) :
    Throughout leavesSuperseded c.past ∧
      (Always settlesAsClaimed c.past →
        (∀ pid, ∃ owed, ledger (ownSteps pid c.past) = some owed ∧
          (owed.isSome → ∃ call op k, c.proc pid = some ⟨call, .await op k⟩)) ∧
        ∀ pid host tenantId jobId workerId,
          c.proc pid = some ⟨⟨host, .executeJob tenantId jobId workerId⟩, .settled (.ok true)⟩ →
          ∃ step ∈ ownSteps pid c.past, committed step = some (jobId, .completed)) := by
  have htrue : ∀ past : (settlementPlatform τ).History, Throughout (fun _ _ => True) past :=
    fun past => throughout_of_split fun _ _ _ _ => trivial
  refine ⟨?_, fun hcond => ?_⟩
  · obtain ⟨phases, hfenced, -⟩ := Discipline.sound settlementProtocol_obeyed
      leavesSuperseded_inductive (w := w) trivial hrun (htrue c.past)
    exact hfenced
  have hinit : Keyed w ∧ SettlesSoundly w [] (fun _ => none) := by
    refine ⟨fun id job hget => ?_, fun pid => rfl⟩
    rw [hw] at hget
    cases hget
  obtain ⟨phases, ⟨-, hsound⟩, htracks⟩ := Discipline.sound settlementProtocol_obeyed
    settles_inductive hinit hrun hcond
  constructor
  · intro pid
    cases hproc : c.proc pid with
    | none =>
      have hpid := hsound pid
      rw [htracks.gone pid hproc] at hpid
      exact ⟨none, hpid, fun h => by cases h⟩
    | some p =>
      obtain ⟨ph, hph, hconf⟩ := htracks.live pid p hproc
      obtain ⟨owed, howed, heven⟩ := (hsound.live hph).kept
      refine ⟨owed, howed, fun hsome => ?_⟩
      obtain ⟨call, rest⟩ := p
      cases rest with
      | await op k => exact ⟨call, op, k, rfl⟩
      | settled r =>
        -- a process that ended is even
        rw [heven hconf.1] at hsome
        cases hsome
  · intro pid host tenantId jobId workerId hproc
    obtain ⟨ph, hph, hconf⟩ := htracks.live pid _ hproc
    have hph' := hsound.live hph
    rcases hconf.2 rfl with rfl | ⟨id, rfl⟩
    · exact hph'.elim
    · obtain ⟨rfl, -, step, hstep, hmoved⟩ := hph'
      exact ⟨step, hstep, hmoved⟩

/-! ### One worker, and a second one that takes over -/

/-- A system job that is due. -/
def mail : Job Nat where
  id := "job"
  tenantId := "acme"
  type := "appport.mail"
  status := .pending
  runAt := 0
  attemptCount := 0
  maxAttempts := 3
  createdAt := 0

/-- A worker executes the job up to the handler, then `others` happens, and then the
handler returns and the worker settles. -/
def settling (others : List (settlementPlatform Nat).Action) : List (settlementPlatform Nat).Action :=
  [.env (.create mail), .spawn ⟨mailHost, .executeJob "acme" "job" "w1"⟩,
    .step 0 .proceed, .step 0 .proceed, .step 0 .proceed, .step 0 .proceed, .step 0 .proceed] ++
  others ++
  [.step 0 (.host (.ok .undefined)), .step 0 .proceed, .step 0 .proceed, .step 0 (.draw "a1"),
    .step 0 .proceed]

/-- The first worker has answered that it completed the job. -/
def saysCompleted (c : (settlementPlatform Nat).Config) : Bool :=
  match c.proc 0 with
  | some ⟨⟨_, .executeJob _ "job" _⟩, .settled (.ok true)⟩ => true
  | _ => false

theorem proc_of_saysCompleted {c : (settlementPlatform Nat).Config} (h : saysCompleted c = true) :
    ∃ host tenantId workerId,
      c.proc 0 = some ⟨⟨host, .executeJob tenantId "job" workerId⟩, .settled (.ok true)⟩ := by
  unfold saysCompleted at h
  split at h
  · next host tenantId workerId hproc => exact ⟨host, tenantId, workerId, hproc⟩
  · cases h

theorem settlements_are_audited_alone :
    ∃ c, (settlementPlatform Nat).run (Config.init { clock := 0 }) (settling []) = some c ∧
      saysCompleted c = true ∧ Throughout leavesSuperseded c.past ∧
      ∃ step ∈ ownSteps 0 c.past, committed step = some ("job", .completed) := by
  obtain ⟨c, hrun, hc⟩ : ∃ c, (settlementPlatform Nat).run (Config.init { clock := 0 })
      (settling []) = some c ∧ (saysCompleted c && decide (Always settlesAsClaimed c.past)) = true :=
    exists_of_run (by decide +kernel)
  simp only [Bool.and_eq_true, decide_eq_true_eq] at hc
  obtain ⟨hfenced, haudited⟩ := settlements_are_audited rfl hrun
  obtain ⟨host, tenantId, workerId, hproc⟩ := proc_of_saysCompleted hc.1
  exact ⟨c, hrun, hc.1, hfenced, (haudited hc.2).2 0 host tenantId "job" workerId hproc⟩

/-- The lease expires while the handler runs, and a second worker takes the job over. -/
def takenOver : List (settlementPlatform Nat).Action :=
  settling [.env (.tick 30000), .spawn ⟨mailHost, .executeJob "acme" "job" "w2"⟩,
    .step 1 .proceed, .step 1 .proceed, .step 1 .proceed, .step 1 .proceed, .step 1 .proceed]

/-- The first worker says it completed the job and audits that, although no record was
moved by anyone and the job is running. -/
theorem takenOver_audits_nothing_moved :
    ∃ c, (settlementPlatform Nat).run (Config.init { clock := 0 }) takenOver = some c ∧
      saysCompleted c = true ∧ (∃ step ∈ ownSteps 0 c.past, audited step = some ("job", .completed)) ∧
      (∀ pid step, .ran pid step ∈ c.past → committed step = none) ∧
      (c.world.jobs.get "job").map Job.status = some .running := by
  obtain ⟨c, hrun, hc⟩ : ∃ c, (settlementPlatform Nat).run (Config.init { clock := 0 }) takenOver =
      some c ∧ (saysCompleted c &&
        (ownSteps 0 c.past).any (fun step => audited step == some ("job", .completed)) &&
        c.past.all (fun e => match e with
          | .ran _ step => (committed step).isNone
          | .stopped _ _ => true) &&
        ((c.world.jobs.get "job").map Job.status == some .running)) = true :=
    exists_of_run (by decide +kernel)
  simp only [Bool.and_eq_true, beq_iff_eq, List.any_eq_true, List.all_eq_true] at hc
  obtain ⟨⟨⟨hsaid, haudited⟩, hmoved⟩, hrunning⟩ := hc
  refine ⟨c, hrun, hsaid, haudited, ?_, hrunning⟩
  intro pid step hmem
  exact Option.isNone_iff_eq_none.mp (hmoved _ hmem)

end AppPort
