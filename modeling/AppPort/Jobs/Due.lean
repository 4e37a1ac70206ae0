import AppPort.Jobs.Records

/-!
# Handlers are started from due records

Two guarantees of `executeJob`, under any interleaving of any number of workers with
stale due lists, takeovers, `retry` and creation.

A handler is started from a record that was due when it was claimed, as long as every
execution finds its record due, or running, when it reads it again: the code tests the
re-read record for `running` only, so a record that has left the due list since it was
listed is claimed as it stands.

A job that has completed or failed is not started again unless it was reset, as long as
moreover no worker starts a handler after its claim was overtaken: nothing is tested
between the claim and the handler.
-/

namespace AppPort

open Effects Effects.Platform

variable {τ : Type} [Timestamp τ]

/-! ## What the events show -/

/-- Completed or failed. -/
def Job.isFinished (job : Job τ) : Bool := job.status == .completed || job.status == .failed

/-- The job whose handler the step starts. -/
def startedJob : (jobPlatform τ).Step → Option (Job τ)
  | ⟨_, .host (.startJobHandler job _), _, _, _⟩ => some job
  | _ => none

/-- The record an execution finds, read again, and when. -/
def executionRead : (jobPlatform τ).Step → Option (Job τ × τ)
  | ⟨call, .jobs (.get _ _), .ok (some job), before, _⟩ =>
    if call.entry.executes then some (job, before.clock) else none
  | _ => none

/-- The call changed the record under `id`. -/
def changed (id : String) (before after : World τ) : Bool :=
  (before.jobs.get id).map Job.version != (after.jobs.get id).map Job.version

/-- The step resets the job: only `retry` writes `pending` into a record. -/
def resets (id : String) : (jobPlatform τ).Step → Bool
  | ⟨_, .jobs (.updateJob _ key _ u), _, before, after⟩ =>
    key == id && u.status == some .pending && changed id before after
  | _ => false

/-- Process `pid` claimed this version of the job, from a record due at that moment. -/
def claimedDue (pid : Nat) (job : Job τ) : (jobPlatform τ).Event → Bool
  | .ran q ⟨_, .jobs (.claim _ id _ _), .ok (some claimed), before, _⟩ =>
    q == pid && id == job.id && claimed.version == job.version &&
      (before.jobs.get id).any (isDue before.clock)
  | _ => false

/-- The job has completed or failed, and was not reset since. -/
def finished (id : String) : (jobPlatform τ).History → Bool
  | [] => false
  | .stopped _ _ :: past => finished id past
  | .ran _ step :: past =>
    !resets id step && ((step.after.jobs.get id).any Job.isFinished || finished id past)

/-- A handler that is started was claimed by its process from a due record. -/
def startsFromDue (older : (jobPlatform τ).History) : (jobPlatform τ).Event → Bool
  | .ran pid step => (startedJob step).all fun job => older.any (claimedDue pid job)
  | .stopped _ _ => true

/-- A handler that is started is not that of a job that has completed or failed. -/
def startsUnfinished (older : (jobPlatform τ).History) : (jobPlatform τ).Event → Bool
  | .ran _ step => (startedJob step).all fun job => !finished job.id older
  | .stopped _ _ => true

/-- A record that may be worked on: due, or running and left to its lease. -/
def isRunnable (now : τ) (job : Job τ) : Bool := isDue now job || job.status == .running

/-- An execution finds its record due, or running. -/
def readsRunnable (_ : (jobPlatform τ).History) : (jobPlatform τ).Event → Bool
  | .ran _ step => (executionRead step).all fun r => isRunnable r.2 r.1
  | .stopped _ _ => true

/-- A handler is started while the claim it is started under still stands. -/
def startsCurrent (_ : (jobPlatform τ).History) : (jobPlatform τ).Event → Bool
  | .ran _ step => (startedJob step).all fun job =>
      (step.before.jobs.get job.id).any fun stored => stored.version == job.version
  | .stopped _ _ => true

/-- Only a process that holds a claim starts a handler, the claimed job's. -/
theorem JobStep.starts {ph ph' : JobPhase τ} {step : (jobPlatform τ).Step} {job : Job τ}
    (h : JobStep ph step ph') (hstart : startedJob step = some job) :
    ∃ id, ph = .claimed id job ∧ ph' = .started id job := by
  cases h with
  | quiet hop =>
    obtain ⟨call, op, res, before, after⟩ := step
    cases op with
    | host o =>
      cases o with
      | startJobHandler | awaitJobHandler => cases hop
      | _ => cases hstart
    | _ => cases hstart
  | start =>
    cases hstart
    exact ⟨_, rfl, rfl⟩
  | create hop _ =>
    rcases hop with ⟨new, rfl⟩ | ⟨ops, rfl⟩ <;> cases hstart
  | _ => cases hstart

theorem isRunnable_mono {t t' : τ} {job : Job τ} (h : isRunnable t job = true) (hle : t ≤ t') :
    isRunnable t' job = true := by
  simp only [isRunnable, Bool.or_eq_true] at h ⊢
  exact h.imp_left fun hdue => isDue_mono hdue hle

/-- What may be worked on has neither completed nor failed. -/
theorem not_finished_of_runnable {t : τ} {job : Job τ} (h : isRunnable t job = true) :
    job.isFinished = false := by
  cases hs : job.status <;> simp [isRunnable, isDue, Job.isFinished, hs] at h ⊢

omit [Timestamp τ] in
theorem not_finished_of_running {job : Job τ} (h : job.status = .running) :
    job.isFinished = false := by
  simp [Job.isFinished, h]

/-! ## From a due record -/

/-- What a process knows of the record it works on, when executions find theirs
runnable. -/
def DueSound (w : World τ) (past : (jobPlatform τ).History) (pid : Nat) : JobPhase τ → Prop
  | .read _ job | .judged _ job _ => isRunnable w.clock job = true
  | .claimed _ job => past.any (claimedDue pid job) = true
  | _ => True

theorem DueSound.later {w w' : World τ} {past : (jobPlatform τ).History} {pid : Nat}
    {ph : JobPhase τ} (h : DueSound w past pid ph) (hle : w.clock ≤ w'.clock)
    (newer : (jobPlatform τ).History) : DueSound w' (newer ++ past) pid ph := by
  cases ph with
  | read id job => exact isRunnable_mono h hle
  | judged id job t => exact isRunnable_mono h hle
  | claimed id job =>
    show (newer ++ past).any (claimedDue pid job) = true
    rw [List.any_append, show past.any (claimedDue pid job) = true from h, Bool.or_true]
  | idle | counted | started | answered | owned => trivial

/-- A record that is claimed is due. -/
theorem due_of_claim {w : World τ} {past : (jobPlatform τ).History} {pid : Nat} {id : String}
    {job : Job τ} {ph : JobPhase τ}
    (hfrom : ph = .counted id job ∨ ∃ t, ph = .judged id job t ∧
      JobService.isAbandoned t job = false ∧ (job.status = .running → job.leaseOwner ≠ none))
    (hbase : ph.Sound w) (hdue : DueSound w past pid ph) : isDue w.clock job = true := by
  rcases hfrom with rfl | ⟨t, rfl, -, hrunning⟩
  · exact (JobService.isAbandoned_due hbase.2).2
  · have hnot : job.status ≠ .running := fun h => hrunning h hbase.1.unowned
    have hrunnable : isRunnable w.clock job = true := hdue
    simpa [isRunnable, hnot] using hrunnable

theorem dueSound_own {past : (jobPlatform τ).History} {pid : Nat} {ph ph' : JobPhase τ}
    {step : (jobPlatform τ).Step} {choice : Choice} (hstep : JobStep ph step ph')
    (hexec : AppOp.exec step.op choice step.before = some (step.res, step.after))
    (hbase : ph.Sound step.before) (hdue : DueSound step.before past pid ph)
    (hread : readsRunnable past (.ran pid step) = true) :
    DueSound step.after (.ran pid step :: past) pid ph' := by
  have hle := (exec_clock hexec).ge
  have hstay : DueSound step.after (.ran pid step :: past) pid ph :=
    hdue.later hle [.ran pid step]
  cases hstep with
  | quiet | create | settle => exact hstay
  | start | answer | exhaust | giveUp | own | reset => trivial
  | judge => exact hstay
  | @fetch _ call tenantId id job before after hcall =>
    simp only [readsRunnable, executionRead, hcall, if_true, Option.all_some] at hread
    exact isRunnable_mono hread hle
  | @count _ _ _ _ _ _ res _ _ _ _ _ _ _ _ hto =>
    subst hto
    match res with
    | .error e => trivial
    | .ok none => trivial
    | .ok (some job') => trivial
  | @claim call tenantId id job lease res before after _ _ hfrom hto =>
    subst hto
    match res with
    | .error e => trivial
    | .ok none => trivial
    | .ok (some job') =>
      obtain ⟨old, hget, hv, hnew, -⟩ := exec_claim hexec
      have hheld : Held before id job := by
        rcases hfrom with rfl | ⟨t, rfl, -⟩
        · exact hbase.1
        · exact hbase.1
      obtain rfl := hheld.current hget hv
      have hnow := due_of_claim hfrom hbase hdue
      have hid : job'.id = id := by rw [hnew, written_id, hheld.id_eq]
      have hget : before.jobs.get id = some old := hget
      refine List.any_eq_true.mpr ⟨_, List.mem_cons_self, ?_⟩
      simp [claimedDue, hid, hget, hnow]

theorem due_inductive : (jobProtocol τ).LocalOver (fun older e => readsRunnable older e = true)
    JobBase (fun _ past => Always startsFromDue past) DueSound where
  spawn _ _ _ := trivial
  good := by
    intro past phases pid step ph ph' h
    refine ⟨?_, h.good⟩
    simp only [startsFromDue]
    cases hstart : startedJob step with
    | none => rfl
    | some job =>
      obtain ⟨id, rfl, -⟩ := h.next.starts hstart
      exact h.own
  own := by
    intro past phases pid step ph ph' h
    obtain ⟨choice, hexec⟩ := h.exec
    exact dueSound_own h.next hexec (h.base.2 pid ph h.here) h.own h.cond
  other := by
    intro past phases pid step ph ph' q phq h _ hq
    obtain ⟨choice, hexec⟩ := h.exec
    exact (h.sound q phq hq).later (exec_clock hexec).ge [.ran pid step]
  stopGood hgood _ := ⟨rfl, hgood⟩
  stopOther _ h := h.later (le_refl _) [.stopped _ _]
  envGood _ hgood _ := hgood
  envSound _ _ h henv := h.later (Later.of_env henv).clock []

/-! ## Not again -/

/-- A job that has finished is stored as finished. -/
def FinishedStays (w : World τ) (past : (jobPlatform τ).History) : Prop :=
  ∀ id, finished id past = true → ∃ job, w.jobs.get id = some job ∧ job.isFinished = true

/-- Only a reset changes a record that has finished. -/
theorem finished_merge {id : String} {job : Job τ} {u : JobUpdate τ} {ph ph' : JobPhase τ}
    {w : World τ} {past : (jobPlatform τ).History} {pid : Nat} (h : Merged id job u ph ph')
    (hbase : ph.Sound w) (hdue : DueSound w past pid ph) (hfinished : job.isFinished = true) :
    u = JobService.resetUpdate := by
  have habsurd : job.isFinished = false → u = JobService.resetUpdate := by
    intro hnot
    rw [hnot] at hfinished
    cases hfinished
  cases h with
  | reset hu => exact hu
  | exhausted habandoned => exact habsurd (not_finished_of_running
      (JobService.isAbandoned_due habandoned).1)
  | counted habandoned => exact habsurd (not_finished_of_running
      (JobService.isAbandoned_due habandoned).1)
  | claimed hfrom => exact habsurd (not_finished_of_runnable
      (t := w.clock) (by rw [isRunnable, due_of_claim hfrom hbase hdue, Bool.true_or]))
  | gaveUp => exact habsurd (not_finished_of_running hbase.2)
  | settled => exact habsurd (not_finished_of_running hbase.2)

theorem resets_of_merge {id : String} {job : Job τ} {step : (jobPlatform τ).Step}
    (hop : (∃ tenantId, step.op =
        .jobs (.updateJob tenantId id job.version JobService.resetUpdate)) ∨
      ∃ tenantId lease, step.op = .jobs (.claim tenantId id job.version lease) ∧
        JobService.resetUpdate = claimUpdate step.before.clock lease)
    (hold : step.before.jobs.get id = some job)
    (hnew : step.after.jobs.get id = some (JobService.resetUpdate.written job)) :
    resets id step = true := by
  obtain ⟨call, op, res, before, after⟩ := step
  rcases hop with ⟨tenantId, rfl⟩ | ⟨tenantId, lease, -, hu⟩
  · have hold : before.jobs.get id = some job := hold
    have hnew : after.jobs.get id = some (JobService.resetUpdate.written job) := hnew
    simp [resets, changed, hold, hnew, JobService.resetUpdate]
  · exact absurd (congrArg JobUpdate.status hu) (by simp [JobService.resetUpdate, claimUpdate])

theorem FinishedStays.step {past : (jobPlatform τ).History} {pid : Nat} {ph ph' : JobPhase τ}
    {step : (jobPlatform τ).Step} {choice : Choice} (h : FinishedStays step.before past)
    (hstep : JobStep ph step ph')
    (hexec : AppOp.exec step.op choice step.before = some (step.res, step.after))
    (hbase : ph.Sound step.before) (hdue : DueSound step.before past pid ph) :
    FinishedStays step.after (.ran pid step :: past) := by
  intro id hfinished
  simp only [finished, Bool.and_eq_true, Bool.not_eq_true', Bool.or_eq_true] at hfinished
  obtain ⟨hreset, hnow | hpast⟩ := hfinished
  · cases hget : step.after.jobs.get id with
    | none =>
      rw [hget] at hnow
      cases hnow
    | some job =>
      rw [hget] at hnow
      exact ⟨job, rfl, hnow⟩
  · obtain ⟨job, hget, hjob⟩ := h id hpast
    rcases exec_job hexec id with hsame | ⟨_, -, -, habsent, -⟩ | ⟨job', u, hop, hold, hnew⟩
    · exact ⟨job, hsame.trans hget, hjob⟩
    · rw [hget] at habsent
      cases habsent
    · rw [hget] at hold
      obtain rfl := Option.some.inj hold
      obtain rfl := finished_merge (hstep.merged hbase hexec hget hop) hbase hdue hjob
      rw [resets_of_merge hop hget hnew] at hreset
      cases hreset

/-- Under a claim that still stands the stored job is running, so it has not finished. -/
theorem not_finished_of_current {w : World τ} {past : (jobPlatform τ).History} {id : String}
    {job : Job τ} (h : FinishedStays w past) (hheld : Held w id job) (hrunning : job.status = .running)
    (hcurrent : (w.jobs.get job.id).any (fun stored => stored.version == job.version) = true) :
    finished job.id past = false := by
  by_contra hfinished
  obtain ⟨stored, hget, hstored⟩ := h job.id (Bool.not_eq_false _ ▸ hfinished)
  rw [hget, Option.any_some, beq_iff_eq] at hcurrent
  rw [hheld.id_eq] at hget
  obtain rfl := hheld.current hget hcurrent
  rw [not_finished_of_running hrunning] at hstored
  cases hstored

theorem finished_inductive : (jobProtocol τ).LocalOver
    (fun older e => readsRunnable older e = true ∧ startsCurrent older e = true) JobBase
    (fun w past => Always startsUnfinished past ∧ FinishedStays w past) DueSound where
  spawn _ _ _ := trivial
  good := by
    intro past phases pid step ph ph' h
    obtain ⟨choice, hexec⟩ := h.exec
    have hbase := h.base.2 pid ph h.here
    refine ⟨⟨?_, h.good.1⟩, h.good.2.step h.next hexec hbase h.own⟩
    simp only [startsUnfinished]
    cases hstart : startedJob step with
    | none => rfl
    | some job =>
      obtain ⟨id, rfl, -⟩ := h.next.starts hstart
      have hcurrent := h.cond.2
      simp only [startsCurrent, hstart, Option.all_some] at hcurrent
      simp [not_finished_of_current h.good.2 hbase.1 hbase.2 hcurrent]
  own := by
    intro past phases pid step ph ph' h
    obtain ⟨choice, hexec⟩ := h.exec
    exact dueSound_own h.next hexec (h.base.2 pid ph h.here) h.own h.cond.1
  other := by
    intro past phases pid step ph ph' q phq h _ hq
    obtain ⟨choice, hexec⟩ := h.exec
    exact (h.sound q phq hq).later (exec_clock hexec).ge [.ran pid step]
  stopGood hgood _ := ⟨⟨rfl, hgood.1⟩, hgood.2⟩
  stopOther _ h := h.later (le_refl _) [.stopped _ _]
  envGood move hgood henv := by
    refine ⟨hgood.1, fun id hid => ?_⟩
    obtain ⟨job, hget, hjob⟩ := hgood.2 id hid
    exact ⟨job, by rw [jobEnv_jobs henv, hget], hjob⟩
  envSound _ _ h henv := h.later (Later.of_env henv).clock []

/-! ## The guarantees -/

theorem jobBase_init {w : World τ} (hw : w.jobs = Table.empty) :
    JobBase w [] (fun _ => none) := by
  refine ⟨fun id job hget => ?_, fun q phq hq => by cases hq⟩
  rw [hw] at hget
  cases hget

/-- **Handlers are started from due records, and not again once the job has finished.**
In every run of the job service over a store that starts empty, in which every execution
finds its record due or running when it reads it again, every handler that is started was
claimed by its worker from a record that was due at that moment. If moreover no handler
is started after its claim was overtaken, no handler is started of a job that has
completed or failed and was not reset since. -/
theorem handlers_start_from_due {w : World τ} (hw : w.jobs = Table.empty)
    {as : List (jobPlatform τ).Action} {c : (jobPlatform τ).Config}
    (hrun : (jobPlatform τ).run (Config.init w) as = some c)
    (hreads : Always readsRunnable c.past) :
    Always startsFromDue c.past ∧
      (Always startsCurrent c.past → Always startsUnfinished c.past) := by
  constructor
  · obtain ⟨phases, ⟨-, hdue, -⟩, -⟩ := Discipline.sound jobProtocol_obeyed
      ((jobBase _).and due_inductive.toInductive)
      ⟨jobBase_init hw, trivial, fun q phq hq => by cases hq⟩ hrun hreads
    exact hdue
  · intro hcurrent
    have hboth : Throughout (fun older e =>
        readsRunnable older e = true ∧ startsCurrent older e = true) c.past :=
      throughout_of_split fun newer e older hpast => by
        rw [hpast] at hreads hcurrent
        exact ⟨Throughout.split newer hreads, Throughout.split newer hcurrent⟩
    have hinit : FinishedStays w ([] : (jobPlatform τ).History) := by
      intro id hid
      cases hid
    obtain ⟨phases, ⟨-, ⟨hunfinished, -⟩, -⟩, -⟩ := Discipline.sound jobProtocol_obeyed
      ((jobBase _).and finished_inductive.toInductive)
      ⟨jobBase_init hw, ⟨trivial, hinit⟩, fun q phq hq => by cases hq⟩ hrun hboth
    exact hunfinished

/-! ### Two workers and one job -/

/-- A host with an authorizer, for which a system handler is registered. -/
def mailHost : JobHost where
  authority := some { application := "app", authorizer := true, credentials := false }
  registered := ["appport.mail"]

/-- A system job is queued, and a first worker runs it to the end; `others` is what
happens between its reading of the due list and the rest. -/
def oneWorker (others : List (jobPlatform Nat).Action) : List (jobPlatform Nat).Action :=
  [.spawn ⟨mailHost, .systemEnqueue { tenantId := some "acme", type := "appport.mail" }⟩,
    .step 0 (.draw "job"), .step 0 .proceed, .step 0 .proceed, .step 0 (.draw "a1"), .step 0 .proceed,
    .spawn ⟨mailHost, .work "acme" "w1"⟩, .step 1 .proceed, .step 1 .proceed] ++ others ++
  [.step 1 .proceed, .step 1 .proceed, .step 1 .proceed, .step 1 .proceed, .step 1 .proceed,
    .step 1 (.host (.ok .undefined)), .step 1 .proceed, .step 1 .proceed, .step 1 (.draw "a2"),
    .step 1 .proceed]

/-- The job was started. -/
def hasStarted (c : (jobPlatform Nat).Config) : Bool :=
  c.past.any fun e => match e with
    | .ran _ step => (startedJob step).isSome
    | .stopped _ _ => false

theorem handlers_start_from_due_oneWorker :
    ∃ c, (jobPlatform Nat).run (Config.init { clock := 0 }) (oneWorker []) = some c ∧
      hasStarted c = true ∧ Always startsFromDue c.past ∧ Always startsUnfinished c.past := by
  obtain ⟨c, hrun, hc⟩ : ∃ c, (jobPlatform Nat).run (Config.init { clock := 0 }) (oneWorker []) =
      some c ∧ (hasStarted c && decide (Always readsRunnable c.past) &&
        decide (Always startsCurrent c.past)) = true := exists_of_run (by decide +kernel)
  simp only [Bool.and_eq_true, decide_eq_true_eq] at hc
  obtain ⟨⟨hstarted, hreads⟩, hcurrent⟩ := hc
  obtain ⟨hdue, hunfinished⟩ := handlers_start_from_due rfl hrun hreads
  exact ⟨c, hrun, hstarted, hdue, hunfinished hcurrent⟩

/-- A second worker lists the job while it is due, and executes it after the first has
completed it: the record is not `running`, so it is claimed and started again. -/
def staleList : List (jobPlatform Nat).Action :=
  oneWorker [.spawn ⟨mailHost, .work "acme" "w2"⟩, .step 2 .proceed, .step 2 .proceed] ++
    [.step 2 .proceed, .step 2 .proceed, .step 2 .proceed, .step 2 .proceed, .step 2 .proceed]

theorem staleList_restarts_completed :
    ∃ c, (jobPlatform Nat).run (Config.init { clock := 0 }) staleList = some c ∧
      ¬ Always startsFromDue c.past ∧ ¬ Always startsUnfinished c.past := by
  obtain ⟨c, hrun, hc⟩ : ∃ c, (jobPlatform Nat).run (Config.init { clock := 0 }) staleList = some c ∧
      (decide (¬ Always startsFromDue c.past) && decide (¬ Always startsUnfinished c.past)) = true :=
    exists_of_run (by decide +kernel)
  simp only [Bool.and_eq_true, decide_eq_true_eq] at hc
  exact ⟨c, hrun, hc⟩

end AppPort
