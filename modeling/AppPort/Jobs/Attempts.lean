import AppPort.Jobs.Due

/-!
# Attempts are bounded

`attemptCount` is raised by three conditional writes: a takeover counts the attempt it
found abandoned, a failure counts its own, and a run whose authority could not decide
puts the job back without counting. The bound on starts rests on one inequality. Every
claim since the job was created or last reset is *open* until its handler is started or
it puts the job back; starts and open claims together never exceed the attempts counted,
and the one that is running.

It holds as long as no handler's own error is taken for the authority's, no execution
finds the job completed or failed, and no handler is started under a claim from before
the last reset.
-/

namespace AppPort

open Effects Effects.Platform

variable {τ : Type} [Timestamp τ]

/-! ## What a step does to a job's attempts -/

/-- What a step is to the attempts of a job. -/
inductive AttemptAct where
  /-- The job is created or reset. -/
  | renewed
  | claimed
  | started
  /-- The job is put back to `retrying`, and the attempt is not counted. -/
  | putBack
  | other
  deriving DecidableEq

/-- The step inserts the record under `id`. -/
def inserts (id : String) (step : (jobPlatform τ).Step) : Bool :=
  (step.before.jobs.get id).isNone && (step.after.jobs.get id).isSome

/-- The step claims the job, and its process learns so. -/
def claims (id : String) : (jobPlatform τ).Step → Bool
  | ⟨_, .jobs (.claim _ key _ _), .ok (some _), _, _⟩ => key == id
  | _ => false

/-- The update puts a job back to `retrying` and does not raise `attemptCount`. -/
def JobUpdate.isUncounted (u : JobUpdate τ) : Bool :=
  u.status == some .retrying && u.attemptCount.isNone

/-- The update the step writes to the job, when it writes one. -/
def writesTo (id : String) : (jobPlatform τ).Step → Option (JobUpdate τ)
  | ⟨_, .jobs (.updateJob _ key _ u), _, _, _⟩ => if key == id then some u else none
  | _ => none

def actOn (id : String) (step : (jobPlatform τ).Step) : AttemptAct :=
  if resets id step || inserts id step then .renewed
  else if claims id step then .claimed
  else if (startedJob step).any (fun job => job.id == id) then .started
  else if (writesTo id step).any JobUpdate.isUncounted && changed id step.before step.after then
    .putBack
  else .other

/-- How often the job's handler was started since it was created or last reset. -/
def startsIn (id : String) : (jobPlatform τ).History → Nat
  | [] => 0
  | .stopped _ _ :: past => startsIn id past
  | .ran _ step :: past =>
    match actOn id step with
    | .renewed => 0
    | .started => startsIn id past + 1
    | _ => startsIn id past

/-- The processes whose claims since then have neither been started nor put back. -/
def openIn (id : String) : (jobPlatform τ).History → List Nat
  | [] => []
  | .stopped _ _ :: past => openIn id past
  | .ran pid step :: past =>
    match actOn id step with
    | .renewed => []
    | .claimed => pid :: openIn id past
    | .started | .putBack => (openIn id past).erase pid
    | .other => openIn id past

/-- The process claimed the job since it was created or last reset. -/
def claimStands (pid : Nat) (id : String) : (jobPlatform τ).History → Bool
  | [] => false
  | .stopped _ _ :: past => claimStands pid id past
  | .ran q step :: past =>
    match actOn id step with
    | .renewed => false
    | .claimed => q == pid || claimStands pid id past
    | _ => claimStands pid id past

/-- The process has started a handler since it last read a job to execute. -/
def startedInRun (pid : Nat) : (jobPlatform τ).History → Bool
  | [] => false
  | .stopped _ _ :: past => startedInRun pid past
  | .ran q step :: past =>
    if q = pid then
      (executionRead step).isNone && ((startedJob step).isSome || startedInRun pid past)
    else startedInRun pid past

/-! ## The guarantees and their conditions, event by event -/

/-- A handler that is started is within the attempts of its job. -/
def startsWithinAttempts (older : (jobPlatform τ).History) : (jobPlatform τ).Event → Bool
  | .ran _ step => (startedJob step).all fun job =>
      job.maxAttempts < 1 || (startsIn job.id older + 1 : Int) ≤ job.maxAttempts
  | .stopped _ _ => true

/-- A job that is put back uncounted was not started in that run. -/
def putsBackUnstarted (older : (jobPlatform τ).History) : (jobPlatform τ).Event → Bool
  | .ran pid ⟨_, .jobs (.updateJob _ _ _ u), _, _, _⟩ => !(u.isUncounted && startedInRun pid older)
  | _ => true

/-- No handler's own error is taken for an authority's that could not decide. -/
def answersPlainly (_ : (jobPlatform τ).History) : (jobPlatform τ).Event → Bool
  | .ran _ ⟨call, .host (.awaitJobHandler job), res, _, _⟩ => !looksUnavailable call.host job res
  | _ => true

/-- No execution finds its job completed or failed. -/
def readsUnfinished (_ : (jobPlatform τ).History) : (jobPlatform τ).Event → Bool
  | .ran _ step => (executionRead step).all fun r => !r.1.isFinished
  | .stopped _ _ => true

/-- A handler is started under a claim since the job was created or last reset. -/
def startsStanding (older : (jobPlatform τ).History) : (jobPlatform τ).Event → Bool
  | .ran pid step => (startedJob step).all fun job => claimStands pid job.id older
  | .stopped _ _ => true

/-! ## Put back, not started -/

/-- A process has not started a handler before it claimed its job, and its handler's
error is its own. -/
def RunSound (_ : World τ) (past : (jobPlatform τ).History) (pid : Nat) : JobPhase τ → Prop
  | .read _ _ | .judged _ _ _ | .counted _ _ | .claimed _ _ => startedInRun pid past = false
  | .answered _ _ unavailable => unavailable = false
  | _ => True

/-- The step starts no handler. -/
theorem startedInRun_cons {pid q : Nat} {step : (jobPlatform τ).Step}
    {past : (jobPlatform τ).History} (h : q ≠ pid ∨ startedJob step = none)
    (hpast : startedInRun pid past = false) : startedInRun pid (.ran q step :: past) = false := by
  simp only [startedInRun]
  split
  · next hq =>
    rcases h with h | h
    · exact absurd hq h
    · rw [h, hpast, Option.isSome_none, Bool.or_false, Bool.and_false]
  · exact hpast

theorem RunSound.cons {w w' : World τ} {past : (jobPlatform τ).History} {pid q : Nat}
    {step : (jobPlatform τ).Step} {ph : JobPhase τ} (h : RunSound w past pid ph)
    (hstep : q ≠ pid ∨ startedJob step = none) : RunSound w' (.ran q step :: past) pid ph := by
  cases ph with
  | read | judged | counted | claimed => exact startedInRun_cons hstep h
  | answered => exact h
  | idle | started | owned => trivial

/-- Only starting a handler starts one. -/
theorem JobStep.startedJob_none {ph ph' : JobPhase τ} {step : (jobPlatform τ).Step}
    (h : JobStep ph step ph') (hph : ∀ id job, ph' ≠ .started id job) : startedJob step = none := by
  cases hstart : startedJob step with
  | none => rfl
  | some job =>
    obtain ⟨id, -, hto⟩ := h.starts hstart
    exact absurd hto (hph id job)

theorem runSound_own {w w' : World τ} {past : (jobPlatform τ).History} {pid : Nat}
    {ph ph' : JobPhase τ} {step : (jobPlatform τ).Step} (hstep : JobStep ph step ph')
    (h : RunSound w past pid ph) (hanswers : answersPlainly past (.ran pid step) = true) :
    RunSound w' (.ran pid step :: past) pid ph' := by
  have hnone := hstep.startedJob_none
  cases hstep with
  | quiet | create =>
    cases ph with
    | started => trivial
    | _ => exact h.cons (.inr (hnone (by intro _ _ hph; cases hph)))
  | settle => exact h
  | start | exhaust | giveUp | own | reset => trivial
  | judge => exact RunSound.cons (w := w) h (.inr rfl)
  | @fetch _ _ _ _ _ _ _ hcall =>
    show startedInRun pid _ = false
    simp [startedInRun, executionRead, hcall]
  | @answer call id job res before after =>
    show looksUnavailable call.host job res = false
    simpa [answersPlainly] using hanswers
  | @count _ _ _ _ _ _ res _ _ _ _ _ _ _ _ hto =>
    subst hto
    rcases res with e | ⟨_ | job'⟩
    · trivial
    · trivial
    · exact startedInRun_cons (.inr rfl) h
  | @claim _ _ _ _ _ res _ _ _ _ hfrom hto =>
    have hpast : startedInRun pid past = false := by
      rcases hfrom with rfl | ⟨t, rfl, -⟩
      · exact h
      · exact h
    subst hto
    rcases res with e | ⟨_ | job'⟩
    · trivial
    · trivial
    · exact startedInRun_cons (.inr rfl) hpast

theorem putsBackUnstarted_step {w : World τ} {past : (jobPlatform τ).History} {pid : Nat}
    {ph ph' : JobPhase τ} {step : (jobPlatform τ).Step} (hstep : JobStep ph step ph')
    (h : RunSound w past pid ph) : putsBackUnstarted past (.ran pid step) = true := by
  have huncounted : ∀ u : JobUpdate τ, u.status ≠ some .retrying ∨ u.attemptCount ≠ none →
      (!(u.isUncounted && startedInRun pid past)) = true := by
    intro u hu
    rcases hu with hu | hu
    · simp [JobUpdate.isUncounted, hu]
    · simp [JobUpdate.isUncounted, Option.isSome_iff_ne_none.mpr hu]
  cases hstep with
  | quiet hop =>
    obtain ⟨call, op, res, before, after⟩ := step
    cases op with
    | jobs o =>
      cases o with
      | updateJob => cases hop
      | _ => rfl
    | _ => rfl
  | create hop =>
    rcases hop with ⟨job, rfl⟩ | ⟨ops, rfl⟩ <;> rfl
  | fetch | own | judge | claim | start | answer => rfl
  | exhaust _ hstatus _ => exact huncounted _ (.inl (by simp [hstatus]))
  | count _ _ hstatus => exact huncounted _ (.inl (by simp [hstatus]))
  | reset => exact huncounted JobService.resetUpdate (.inl (by simp [JobService.resetUpdate]))
  | giveUp =>
    show (!(_ && startedInRun pid past)) = true
    rw [show startedInRun pid past = false from h, Bool.and_false]
    rfl
  | @settle _ _ _ _ _ unavailable u _ _ _ _ _ hcounted =>
    refine huncounted u ?_
    by_contra hboth
    obtain ⟨hstatus, hcount⟩ := not_or.mp hboth
    have htrue := hcounted (not_not.mp hstatus) (not_not.mp hcount)
    rw [show unavailable = false from h] at htrue
    cases htrue

theorem putBack_inductive : (jobProtocol τ).LocalOver (fun older e => answersPlainly older e = true)
    JobBase (fun _ past => Always putsBackUnstarted past) RunSound where
  spawn _ _ _ := trivial
  good h := ⟨putsBackUnstarted_step h.next h.own, h.good⟩
  own h := runSound_own h.next h.own h.cond
  other h hne hq := (h.sound _ _ hq).cons (.inl hne.symm)
  stopGood hgood _ := ⟨rfl, hgood⟩
  stopOther {_ _ _ _ _ phq} _ h := by
    cases phq <;> exact h
  envGood _ hgood _ := hgood
  envSound {_ _ _ _ phq} _ _ h _ := by
    cases phq <;> exact h

/-! ## Reading off what a step is -/

theorem startedJob_op {step : (jobPlatform τ).Step} {job : Job τ}
    (h : startedJob step = some job) :
    ∃ execution, step.op = .host (.startJobHandler job execution) := by
  unfold startedJob at h
  split at h
  · obtain rfl := Option.some.inj h
    exact ⟨_, rfl⟩
  · cases h

/-- A step that starts a job starts its handler. -/
theorem startedJob_of_actOn {id : String} {step : (jobPlatform τ).Step}
    (h : actOn id step = .started) : ∃ job, startedJob step = some job ∧ job.id = id := by
  unfold actOn at h
  split at h
  · cases h
  split at h
  · cases h
  split at h
  · next hany =>
    cases hstart : startedJob step with
    | none =>
      rw [hstart] at hany
      cases hany
    | some job =>
      rw [hstart, Option.any_some, beq_iff_eq] at hany
      exact ⟨job, rfl, hany⟩
  · split at h <;> cases h

/-- Creating, resetting, claiming and putting back a job change its record. -/
theorem actOn_of_unchanged {id : String} {step : (jobPlatform τ).Step} {choice : Choice}
    (hexec : AppOp.exec step.op choice step.before = some (step.res, step.after))
    (h : changed id step.before step.after = false) :
    actOn id step = .other ∨ actOn id step = .started := by
  have hrenewed : (resets id step || inserts id step) = false := by
    rw [Bool.or_eq_false_iff]
    constructor
    · unfold resets
      split
      · rw [show changed id _ _ = false from h, Bool.and_false]
      · rfl
    · simp only [changed, bne_eq_false_iff_eq] at h
      simp only [inserts]
      cases hb : step.before.jobs.get id with
      | some job => rfl
      | none =>
        cases ha : step.after.jobs.get id with
        | none => rfl
        | some job =>
          rw [hb, ha] at h
          cases h
  have hclaims : claims id step = false := by
    by_contra hclaim
    rw [Bool.not_eq_false] at hclaim
    unfold claims at hclaim
    split at hclaim
    · next call tenantId key v lease job' before after =>
      obtain rfl := beq_iff_eq.mp hclaim
      obtain ⟨old, hget, hv, hnew, hget'⟩ := exec_claim hexec
      have hget : before.jobs.get key = some old := hget
      have hget' : after.jobs.get key = some job' := hget'
      simp [changed, hget, hget', hnew] at h
    · cases hclaim
  unfold actOn
  rw [hrenewed, hclaims, h, Bool.and_false]
  cases (startedJob step).any (fun job => job.id == id) with
  | false => exact .inl rfl
  | true => exact .inr rfl

omit [Timestamp τ] in
theorem changed_of_same {id : String} {w w' : World τ} (h : w'.jobs.get id = w.jobs.get id) :
    changed id w w' = false := by
  simp [changed, h]

/-- What a conditional update that goes through is to its job. -/
theorem actOn_update {id tenantId : String} {v : Nat} {u : JobUpdate τ} {job : Job τ}
    {step : (jobPlatform τ).Step} (hop : step.op = .jobs (.updateJob tenantId id v u))
    (hold : step.before.jobs.get id = some job)
    (hnew : step.after.jobs.get id = some (u.written job)) :
    actOn id step = if u.status = some .pending then .renewed
      else if u.isUncounted then .putBack else .other := by
  obtain ⟨call, op, res, before, after⟩ := step
  subst hop
  have hold : before.jobs.get id = some job := hold
  have hnew : after.jobs.get id = some (u.written job) := hnew
  have hchanged : changed id before after = true := by simp [changed, hold, hnew]
  by_cases hp : u.status = some .pending
  · simp [actOn, resets, hp, hchanged]
  · simp [actOn, resets, inserts, claims, startedJob, writesTo, hp, hchanged, hold]

/-- What a claim is to its job: a claim, or, when its process does not learn of it,
nothing. -/
theorem actOn_claim {id tenantId : String} {v : Nat} {lease : τ} {job : Job τ}
    {step : (jobPlatform τ).Step} (hop : step.op = .jobs (.claim tenantId id v lease))
    (hold : step.before.jobs.get id = some job) :
    actOn id step = .claimed ∨ actOn id step = .other := by
  obtain ⟨call, op, res, before, after⟩ := step
  subst hop
  replace hold : before.jobs.get id = some job := hold
  rcases res with e | job'
  · exact .inr (by simp [actOn, resets, inserts, claims, startedJob, writesTo, hold])
  cases job' with
  | none => exact .inr (by simp [actOn, resets, inserts, claims, startedJob, writesTo, hold])
  | some job' => exact .inl (by simp [actOn, resets, inserts, claims, hold])

theorem actOn_insert {id : String} {step : (jobPlatform τ).Step} {job : Job τ}
    (hold : step.before.jobs.get id = none) (hnew : step.after.jobs.get id = some job) :
    actOn id step = .renewed := by
  simp [actOn, inserts, hold, hnew]

/-! ## Starts and open claims -/

/-- **The inequality.** Starts and open claims of a job that is still worked on do not
exceed the attempts counted and the one that is running; and never the maximum. -/
structure Bounded (job : Job τ) (load : Nat) : Prop where
  total : (load : Int) ≤ job.maxAttempts
  counted : job.isFinished = false → (job.attemptCount : Int) < job.maxAttempts
  live : job.isFinished = false →
    load ≤ job.attemptCount + if job.status = .running then 1 else 0

/-- The starts of a job and its open claims, since it was created or last reset. -/
def load (id : String) (past : (jobPlatform τ).History) : Nat :=
  startsIn id past + (openIn id past).length

section load

variable {id : String} {past : (jobPlatform τ).History} {pid : Nat} {step : (jobPlatform τ).Step}

theorem load_renewed (h : actOn id step = .renewed) : load id (.ran pid step :: past) = 0 := by
  simp [load, startsIn, openIn, h]

theorem load_claimed (h : actOn id step = .claimed) :
    load id (.ran pid step :: past) = load id past + 1 := by
  simp [load, startsIn, openIn, h, Nat.add_assoc]

theorem load_other (h : actOn id step = .other) :
    load id (.ran pid step :: past) = load id past := by
  simp [load, startsIn, openIn, h]

/-- An open claim that is started is a start instead. -/
theorem load_started (h : actOn id step = .started) (hopen : pid ∈ openIn id past) :
    load id (.ran pid step :: past) = load id past := by
  have hpos := List.length_pos_of_mem hopen
  simp only [load, startsIn, openIn, h, List.length_erase_of_mem hopen]
  omega

/-- An open claim that is put back is gone. -/
theorem load_putBack (h : actOn id step = .putBack) (hopen : pid ∈ openIn id past) :
    load id (.ran pid step :: past) + 1 = load id past := by
  have hpos := List.length_pos_of_mem hopen
  simp only [load, startsIn, openIn, h, List.length_erase_of_mem hopen]
  omega

end load

/-- The inequality of every stored job with at least one attempt. -/
def AllBounded (w : World τ) (past : (jobPlatform τ).History) : Prop :=
  ∀ id job, w.jobs.get id = some job → 1 ≤ job.maxAttempts → Bounded job (load id past)

omit [Timestamp τ] in
theorem Bounded.fresh {job : Job τ} (h : Fresh job) (hmax : 1 ≤ job.maxAttempts) :
    Bounded job 0 := by
  refine ⟨?_, ?_, ?_⟩
  · have : (0 : Int) ≤ 1 := by decide
    exact this.trans hmax
  · intro _
    rw [h.attemptCount]
    exact hmax
  · intro _
    exact Nat.zero_le _

/-- What a process knows of the claims open on its job. -/
def AttemptSound (w : World τ) (past : (jobPlatform τ).History) (pid : Nat) : JobPhase τ → Prop
  | .read _ job | .judged _ job _ => job.isFinished = false
  | .counted id job => 1 ≤ job.maxAttempts →
      (∃ stored, w.jobs.get id = some stored ∧ stored.version = job.version) →
      load id past ≤ job.attemptCount
  | .claimed id job => (claimStands pid id past = true ∨
      ∃ stored, w.jobs.get id = some stored ∧ stored.version = job.version) → pid ∈ openIn id past
  | .answered _ _ unavailable => unavailable = false
  | _ => True

omit [Timestamp τ] in
theorem Bounded.settled {job : Job τ} {u : JobUpdate τ} {n : Nat} (h : Bounded job n)
    (hrunning : job.status = .running) (hu : Settles job u) (hcounted : u.isUncounted = false) :
    Bounded (u.written job) n := by
  have hlive := h.live (not_finished_of_running hrunning)
  have hcount := h.counted (not_finished_of_running hrunning)
  rw [if_pos hrunning] at hlive
  cases hu with
  | completed hstatus hnone =>
    refine ⟨h.total, ?_, ?_⟩ <;> intro hfinished <;> simp [Job.isFinished, hstatus] at hfinished
  | failed hstatus _ =>
    refine ⟨h.total, ?_, ?_⟩ <;> intro hfinished <;> simp [Job.isFinished, hstatus] at hfinished
  | retried hstatus hsome hmore =>
    refine ⟨h.total, ?_, ?_⟩
    · intro _
      simpa [hsome] using hmore
    · intro _
      simpa [hsome, hstatus] using hlive
  | putBack hstatus hnone =>
    simp [JobUpdate.isUncounted, hstatus, hnone] at hcounted

/-! ## The inequality along the protocol -/

omit [Timestamp τ] in
/-- Where the version is still that of the copy, nothing has changed. -/
theorem Held.unchanged {w w' : World τ} {id : String} {job stored : Job τ} (h : Held w id job)
    (hw : ∀ id job, w.jobs.get id = some job → RecordFence w w' id job)
    (hget : w'.jobs.get id = some stored) (hv : stored.version = job.version) :
    w.jobs.get id = some stored ∧ changed id w w' = false := by
  obtain ⟨old, hold, -, hle, -⟩ := h.seen
  obtain ⟨new, hnew, -, hle', hsame⟩ := hw id old hold
  rw [hget] at hnew
  obtain rfl := Option.some.inj hnew
  have hversion : stored.version = old.version := by omega
  obtain rfl := hsame hversion
  exact ⟨hold, changed_of_same (hget.trans hold.symm)⟩

section step

variable {past : (jobPlatform τ).History} {pid : Nat} {step : (jobPlatform τ).Step}
  {choice : Choice}

/-- Where nothing changed, neither did the load: a start was an open claim. -/
theorem load_of_unchanged {id : String}
    (hexec : AppOp.exec step.op choice step.before = some (step.res, step.after))
    (hopen : actOn id step = .started → pid ∈ openIn id past)
    (h : changed id step.before step.after = false) :
    load id (.ran pid step :: past) = load id past := by
  rcases actOn_of_unchanged hexec h with hact | hact
  · exact load_other hact
  · exact load_started hact (hopen hact)

/-- What is known of a phase stays known when another process takes a step, or its own
process one that concerns no attempt. -/
theorem AttemptSound.stay {q : Nat} {phq : JobPhase τ}
    (h : AttemptSound step.before past q phq) (hbase : phq.Sound step.before)
    (hexec : AppOp.exec step.op choice step.before = some (step.res, step.after))
    (hq : q ≠ pid ∨ ∀ id, actOn id step = .renewed ∨ actOn id step = .other)
    (hopen : ∀ id, actOn id step = .started → pid ∈ openIn id past) :
    AttemptSound step.after (.ran pid step :: past) q phq := by
  have hfence := exec_fence_jobs hexec
  cases phq with
  | read | judged | answered => exact h
  | idle | started | owned => trivial
  | counted id job =>
    rintro hmax ⟨stored, hget, hv⟩
    obtain ⟨hold, hun⟩ := hbase.1.unchanged hfence hget hv
    rw [load_of_unchanged hexec (hopen id) hun]
    exact h hmax ⟨stored, hold, hv⟩
  | claimed id job =>
    intro hor
    -- a version that is still the claim's was not changed by this step
    have hsame : (∃ stored, step.after.jobs.get id = some stored ∧ stored.version = job.version) →
        (actOn id step = .other ∨ actOn id step = .started) ∧
        ∃ stored, step.before.jobs.get id = some stored ∧ stored.version = job.version := by
      rintro ⟨stored, hget, hv⟩
      obtain ⟨hold, hun⟩ := hbase.1.unchanged hfence hget hv
      exact ⟨actOn_of_unchanged hexec hun, stored, hold, hv⟩
    cases hact : actOn id step with
    | renewed =>
      rcases hor with hstands | hversion
      · simp [claimStands, hact] at hstands
      · rcases (hsame hversion).1 with h' | h' <;> rw [hact] at h' <;> cases h'
    | claimed =>
      have hne : q ≠ pid := hq.resolve_right fun hall => by
        rcases hall id with h' | h' <;> rw [hact] at h' <;> cases h'
      simp only [openIn, hact]
      refine List.mem_cons_of_mem _ (h ?_)
      rcases hor with hstands | hversion
      · simp only [claimStands, hact, Bool.or_eq_true, beq_iff_eq] at hstands
        exact .inl (hstands.resolve_left fun heq => hne heq.symm)
      · exact .inr (hsame hversion).2
    | other =>
      simp only [openIn, hact]
      refine h ?_
      rcases hor with hstands | hversion
      · simp only [claimStands, hact] at hstands
        exact .inl hstands
      · exact .inr (hsame hversion).2
    | started | putBack =>
      have hne : q ≠ pid := hq.resolve_right fun hall => by
        rcases hall id with h' | h' <;> rw [hact] at h' <;> cases h'
      simp only [openIn, hact]
      refine (List.mem_erase_of_ne hne).mpr (h ?_)
      rcases hor with hstands | hversion
      · simp only [claimStands, hact] at hstands
        exact .inl hstands
      · exact .inr (hsame hversion).2

/-- A handler is started under a claim that is open. -/
theorem open_of_started {ph ph' : JobPhase τ} (hstep : JobStep ph step ph')
    (hbase : ph.Sound step.before) (h : AttemptSound step.before past pid ph)
    (hstanding : startsStanding past (.ran pid step) = true) {job : Job τ}
    (hstart : startedJob step = some job) : pid ∈ openIn job.id past := by
  obtain ⟨id, rfl, -⟩ := hstep.starts hstart
  simp only [startsStanding, hstart, Option.all_some] at hstanding
  obtain rfl := hbase.1.id_eq
  exact h (.inl hstanding)

/-- A merge keeps the inequality. -/
theorem bounded_merge {id : String} {job : Job τ} {u : JobUpdate τ} {ph ph' : JobPhase τ}
    (hstep : JobStep ph step ph') (hbase : ph.Sound step.before)
    (h : AttemptSound step.before past pid ph)
    (hexec : AppOp.exec step.op choice step.before = some (step.res, step.after))
    (hold : step.before.jobs.get id = some job)
    (hnew : step.after.jobs.get id = some (u.written job))
    (hop : (∃ tenantId, step.op = .jobs (.updateJob tenantId id job.version u)) ∨
      ∃ tenantId lease, step.op = .jobs (.claim tenantId id job.version lease) ∧
        u = claimUpdate step.before.clock lease)
    (hmax : 1 ≤ job.maxAttempts) (hbound : Bounded job (load id past)) :
    Bounded (u.written job) (load id (.ran pid step :: past)) := by
  -- an update that is neither a reset nor uncounted leaves the load alone
  have hplain : (∃ tenantId, step.op = .jobs (.updateJob tenantId id job.version u)) →
      u.status ≠ some .pending → u.isUncounted = false →
      load id (.ran pid step :: past) = load id past := by
    rintro ⟨tenantId, hop⟩ hpending hcounted
    refine load_other ?_
    rw [actOn_update hop hold hnew, if_neg hpending, hcounted]
    rfl
  have hupdate : u.status ≠ some .running →
      ∃ tenantId, step.op = .jobs (.updateJob tenantId id job.version u) := by
    intro hrunning
    rcases hop with hop | ⟨_, _, -, rfl⟩
    · exact hop
    · exact absurd rfl hrunning
  cases hstep.merged hbase hexec hold hop with
  | @exhausted t habandoned hstatus _ =>
    rw [hplain (hupdate (by simp [hstatus])) (by simp [hstatus])
      (by simp [JobUpdate.isUncounted, hstatus])]
    refine ⟨hbound.total, ?_, ?_⟩ <;> intro hfinished <;> simp [Job.isFinished, hstatus] at hfinished
  | @counted t _ habandoned hmore hstatus hcount =>
    rw [hplain (hupdate (by simp [hstatus])) (by simp [hstatus])
      (by simp [JobUpdate.isUncounted, hstatus])]
    have hrunning := (JobService.isAbandoned_due habandoned).1
    have hlive := hbound.live (not_finished_of_running hrunning)
    rw [if_pos hrunning] at hlive
    refine ⟨hbound.total, ?_, ?_⟩
    · intro _
      simpa [hcount] using hmore
    · intro _
      simp only [written_attemptCount, hcount, Option.getD_some]
      omega
  | claimed hfrom hstatus hcount =>
    -- before the claim nothing is running, or the running attempt was counted
    have hload : load id past ≤ job.attemptCount ∧ (job.attemptCount : Int) < job.maxAttempts := by
      rcases hfrom with rfl | ⟨t, rfl, -, hrunning⟩
      · have hrunning := (JobService.isAbandoned_due hbase.2).1
        exact ⟨h hmax ⟨job, hold, rfl⟩, hbound.counted (not_finished_of_running hrunning)⟩
      · have hnot : job.status ≠ .running := fun hr => hrunning hr hbase.1.unowned
        have hlive := hbound.live h
        rw [if_neg hnot] at hlive
        exact ⟨hlive, hbound.counted h⟩
    have hle : load id (.ran pid step :: past) ≤ load id past + 1 := by
      rcases hop with ⟨tenantId, hop⟩ | ⟨tenantId, lease, hop, -⟩
      · rw [load_other]
        · omega
        · rw [actOn_update hop hold hnew, if_neg (by simp [hstatus])]
          simp [JobUpdate.isUncounted, hstatus]
      · rcases actOn_claim hop hold with hact | hact
        · rw [load_claimed hact]
        · rw [load_other hact]
          omega
    refine ⟨?_, ?_, ?_⟩
    · simp only [written_maxAttempts]
      omega
    · intro _
      simpa [hcount] using hload.2
    · intro _
      simp only [written_attemptCount, written_status, hcount, hstatus, Option.getD_none,
        Option.getD_some, if_true]
      omega
  | gaveUp hu hstatus =>
    by_cases hcounted : u.isUncounted = true
    · -- the claim is open, and is open no more
      have hretrying : u.status = some .retrying ∧ u.attemptCount = none := by
        simpa [JobUpdate.isUncounted] using hcounted
      obtain ⟨tenantId, hop⟩ := hupdate (by simp [hretrying.1])
      have hact : actOn id step = .putBack := by
        rw [actOn_update hop hold hnew, if_neg (by simp [hretrying.1]), if_pos hcounted]
      have hopen : pid ∈ openIn id past := h (.inr ⟨job, hold, rfl⟩)
      have hless := load_putBack hact hopen
      have hlive := hbound.live (not_finished_of_running hbase.2)
      rw [if_pos hbase.2] at hlive
      have htotal := hbound.total
      refine ⟨?_, ?_, ?_⟩
      · simp only [written_maxAttempts]
        omega
      · intro _
        simpa [hretrying.2] using hbound.counted (not_finished_of_running hbase.2)
      · intro _
        simp only [written_attemptCount, written_status, hretrying.1, hretrying.2, Option.getD_none,
          Option.getD_some]
        omega
    · rw [Bool.not_eq_true] at hcounted
      have hkind : u.status ≠ some .running ∧ u.status ≠ some .pending := by
        cases hu <;> simp [*]
      rw [hplain (hupdate hkind.1) hkind.2 hcounted]
      exact hbound.settled hbase.2 hu hcounted
  | @settled unavailable hu huncounted =>
    have hcounted : u.isUncounted = false := by
      by_contra hcounted
      rw [Bool.not_eq_false] at hcounted
      have hretrying : u.status = some .retrying ∧ u.attemptCount = none := by
        simpa [JobUpdate.isUncounted] using hcounted
      have htrue := huncounted hretrying.1 hretrying.2
      rw [show unavailable = false from h] at htrue
      cases htrue
    have hkind : u.status ≠ some .running ∧ u.status ≠ some .pending := by
      cases hu <;> simp [*]
    rw [hplain (hupdate hkind.1) hkind.2 hcounted]
    exact hbound.settled hbase.2 hu hcounted
  | reset hu =>
    subst hu
    obtain ⟨tenantId, hop⟩ := hupdate (by simp [JobService.resetUpdate])
    have hact : actOn id step = .renewed := by
      rw [actOn_update hop hold hnew]
      exact if_pos rfl
    rw [load_renewed hact]
    refine ⟨?_, ?_, ?_⟩
    · simp only [written_maxAttempts]
      omega
    · intro _
      simp only [written_attemptCount, JobService.resetUpdate, Option.getD_some,
        written_maxAttempts]
      omega
    · intro _
      exact Nat.zero_le _

theorem allBounded_step {ph ph' : JobPhase τ} (hall : AllBounded step.before past)
    (hstep : JobStep ph step ph') (hbase : ph.Sound step.before)
    (h : AttemptSound step.before past pid ph)
    (hexec : AppOp.exec step.op choice step.before = some (step.res, step.after))
    (hopen : ∀ id, actOn id step = .started → pid ∈ openIn id past) :
    AllBounded step.after (.ran pid step :: past) := by
  intro id job hget hmax
  rcases exec_job hexec id with hsame | ⟨new, hmem, -, habsent, hget'⟩ | ⟨old, u, hop, hold, hget'⟩
  · rw [load_of_unchanged hexec (hopen id) (changed_of_same hsame)]
    exact hall id job (hsame.symm.trans hget) hmax
  · rw [hget] at hget'
    obtain rfl := Option.some.inj hget'
    rw [load_renewed (actOn_insert habsent hget)]
    exact Bounded.fresh (hstep.fresh job hmem) hmax
  · rw [hget] at hget'
    obtain rfl := Option.some.inj hget'
    exact bounded_merge hstep hbase h hexec hold hget hop hmax (hall id old hold hmax)

/-- A steady step is no attempt of its process. -/
theorem actOn_steady
    (hexec : AppOp.exec step.op choice step.before = some (step.res, step.after))
    (hop : step.op.isQuiet = true ∨ (∃ job, step.op = .jobs (.create job)) ∨
      ∃ ops, step.op = .commit ops) (id : String) :
    actOn id step = .renewed ∨ actOn id step = .other := by
  have hnone : startedJob step = none := by
    cases hstart : startedJob step with
    | none => rfl
    | some job =>
      obtain ⟨execution, hstart⟩ := startedJob_op hstart
      rw [hstart] at hop
      rcases hop with hop | ⟨job, hop⟩ | ⟨ops, hop⟩ <;> cases hop
  rcases exec_job hexec id with hsame | ⟨new, -, -, habsent, hget⟩ | ⟨old, u, hmerge, -, -⟩
  · rcases actOn_of_unchanged hexec (changed_of_same hsame) with hact | hact
    · exact .inr hact
    · obtain ⟨job, hstart, -⟩ := startedJob_of_actOn hact
      rw [hnone] at hstart
      cases hstart
  · exact .inl (actOn_insert habsent hget)
  · rcases hmerge with ⟨tenantId, hmerge⟩ | ⟨tenantId, lease, hmerge, -⟩ <;>
    · rw [hmerge] at hop
      rcases hop with hop | ⟨job, hop⟩ | ⟨ops, hop⟩ <;> cases hop

theorem attemptSound_own {ph ph' : JobPhase τ} (hstep : JobStep ph step ph')
    (hbase : ph.Sound step.before) (h : AttemptSound step.before past pid ph)
    (hall : AllBounded step.before past)
    (hexec : AppOp.exec step.op choice step.before = some (step.res, step.after))
    (hopen : ∀ id, actOn id step = .started → pid ∈ openIn id past)
    (hanswers : answersPlainly past (.ran pid step) = true)
    (hreads : readsUnfinished past (.ran pid step) = true) :
    AttemptSound step.after (.ran pid step :: past) pid ph' := by
  have hstay : ph' = ph → (step.op.isQuiet = true ∨ (∃ job, step.op = .jobs (.create job)) ∨
      ∃ ops, step.op = .commit ops) → AttemptSound step.after (.ran pid step :: past) pid ph' := by
    intro hph hop
    subst hph
    exact h.stay hbase hexec (.inr (actOn_steady hexec hop)) hopen
  cases hstep with
  | quiet hop => exact hstay rfl (.inl hop)
  | create hop _ => exact hstay rfl (.inr hop)
  | judge => exact h
  | settle => exact h
  | start | exhaust | giveUp | own | reset => trivial
  | fetch hcall =>
    simp only [readsUnfinished, executionRead, hcall, if_true, Option.all_some] at hreads
    show Job.isFinished _ = false
    simpa using hreads
  | @answer call id job res before after =>
    show looksUnavailable call.host job res = false
    simpa [answersPlainly] using hanswers
  | @count call tenantId id job t u res before after _ habandoned hmore hstatus hcount _ hto =>
    subst hto
    rcases res with e | ⟨_ | job'⟩
    · trivial
    · trivial
    · obtain ⟨old, hget, hv, hnew, hget'⟩ := exec_updateJob hexec
      obtain rfl := hbase.1.current hget hv
      rintro hmax -
      have hrunning := (JobService.isAbandoned_due habandoned).1
      have hlive := (hall id old hget (by simpa [hnew] using hmax)).live
        (not_finished_of_running hrunning)
      rw [if_pos hrunning] at hlive
      rw [load_other]
      · simpa [hnew, hcount] using hlive
      · rw [actOn_update rfl hget (hnew ▸ hget')]
        simp [hstatus, JobUpdate.isUncounted]
  | @claim call tenantId id job lease res before after _ _ hfrom hto =>
    subst hto
    rcases res with e | ⟨_ | job'⟩
    · trivial
    · trivial
    · intro _
      obtain ⟨old, hget, hv, hnew, hget'⟩ := exec_claim hexec
      have hold : before.jobs.get id = some old := hget
      simp [openIn, actOn, resets, inserts, claims, hold]

/-- A handler that is started was open: one of the attempts its job has left. -/
theorem startsWithinAttempts_step {ph ph' : JobPhase τ} (hstep : JobStep ph step ph')
    (hbase : ph.Sound step.before) (hall : AllBounded step.before past)
    (hopen : ∀ job, startedJob step = some job → pid ∈ openIn job.id past) :
    startsWithinAttempts past (.ran pid step) = true := by
  simp only [startsWithinAttempts]
  cases hstart : startedJob step with
  | none => rfl
  | some job =>
    simp only [Option.all_some, Bool.or_eq_true, decide_eq_true_eq]
    by_cases hmax : job.maxAttempts < 1
    · exact .inl hmax
    right
    obtain ⟨id, rfl, -⟩ := hstep.starts hstart
    obtain ⟨stored, hget, hsame, -⟩ := hbase.1.seen
    have htotal := (hall id stored hget (by rw [hsame.maxAttempts]; omega)).total
    rw [hsame.maxAttempts] at htotal
    have hpos := List.length_pos_of_mem (hopen job hstart)
    rw [hbase.1.id_eq] at hpos ⊢
    simp only [load] at htotal
    omega

end step

theorem attempts_inductive : (jobProtocol τ).LocalOver
    (fun older e => answersPlainly older e = true ∧ readsUnfinished older e = true ∧
      startsStanding older e = true) JobBase
    (fun w past => Always startsWithinAttempts past ∧ AllBounded w past) AttemptSound where
  spawn _ _ _ := trivial
  good := by
    intro past phases pid step ph ph' h
    obtain ⟨choice, hexec⟩ := h.exec
    have hbase := h.base.2 pid ph h.here
    have hopen : ∀ job, startedJob step = some job → pid ∈ openIn job.id past := fun _ =>
      open_of_started h.next hbase h.own h.cond.2.2
    refine ⟨⟨startsWithinAttempts_step h.next hbase h.good.2 hopen, h.good.1⟩, ?_⟩
    refine allBounded_step h.good.2 h.next hbase h.own hexec fun id hact => ?_
    obtain ⟨job, hstart, rfl⟩ := startedJob_of_actOn hact
    exact hopen job hstart
  own := by
    intro past phases pid step ph ph' h
    obtain ⟨choice, hexec⟩ := h.exec
    have hbase := h.base.2 pid ph h.here
    refine attemptSound_own h.next hbase h.own h.good.2 hexec (fun id hact => ?_) h.cond.1 h.cond.2.1
    obtain ⟨job, hstart, rfl⟩ := startedJob_of_actOn hact
    exact open_of_started h.next hbase h.own h.cond.2.2 hstart
  other := by
    intro past phases pid step ph ph' q phq h hne hq
    obtain ⟨choice, hexec⟩ := h.exec
    refine (h.sound q phq hq).stay (h.base.2 q phq hq) hexec (.inl hne) fun id hact => ?_
    obtain ⟨job, hstart, rfl⟩ := startedJob_of_actOn hact
    exact open_of_started h.next (h.base.2 pid ph h.here) h.own h.cond.2.2 hstart
  stopGood hgood _ := ⟨⟨rfl, hgood.1⟩, hgood.2⟩
  stopOther {_ _ _ _ _ phq} _ h := by
    cases phq <;> exact h
  envGood {w w' past} move hgood henv := by
    refine ⟨hgood.1, fun id job hget hmax => ?_⟩
    rw [jobEnv_jobs henv] at hget
    exact hgood.2 id job hget hmax
  envSound {w w' past q phq} move _ h henv := by
    cases phq with
    | counted id job =>
      rintro hmax ⟨stored, hget, hv⟩
      rw [jobEnv_jobs henv] at hget
      exact h hmax ⟨stored, hget, hv⟩
    | claimed id job =>
      intro hor
      rw [jobEnv_jobs henv] at hor
      exact h hor
    | idle | read | judged | started | answered | owned => exact h

/-! ## The guarantees -/

/-- **A job's handler is started at most `maxAttempts` times.** In every run of the job
service over a store that starts empty, in which no handler's own error is taken for the
authority's being unavailable: a run that puts its job back to `retrying` without raising
`attemptCount` did not start the handler. If moreover no execution finds its job completed
or failed, and no handler is started under a claim from before the last reset, then between
the creation or a reset of a job with at least one attempt and the next reset, its handler
is started at most `maxAttempts` times. -/
theorem starts_within_maxAttempts {w : World τ} (hw : w.jobs = Table.empty)
    {as : List (jobPlatform τ).Action} {c : (jobPlatform τ).Config}
    (hrun : (jobPlatform τ).run (Config.init w) as = some c)
    (hanswers : Always answersPlainly c.past) :
    Always putsBackUnstarted c.past ∧
      (Always readsUnfinished c.past → Always startsStanding c.past →
        Always startsWithinAttempts c.past) := by
  constructor
  · obtain ⟨phases, ⟨-, hputs, -⟩, -⟩ := Discipline.sound jobProtocol_obeyed
      ((jobBase _).and putBack_inductive.toInductive)
      ⟨jobBase_init hw, trivial, fun q phq hq => by cases hq⟩ hrun hanswers
    exact hputs
  · intro hreads hstanding
    have hall : Throughout (fun older e => answersPlainly older e = true ∧
        readsUnfinished older e = true ∧ startsStanding older e = true) c.past :=
      throughout_of_split fun newer e older hpast => by
        rw [hpast] at hanswers hreads hstanding
        exact ⟨Throughout.split newer hanswers, Throughout.split newer hreads,
          Throughout.split newer hstanding⟩
    have hinit : AllBounded w ([] : (jobPlatform τ).History) := by
      intro id job hget
      rw [hw] at hget
      cases hget
    obtain ⟨phases, ⟨-, ⟨hwithin, -⟩, -⟩, -⟩ := Discipline.sound jobProtocol_obeyed
      ((jobBase _).and attempts_inductive.toInductive)
      ⟨jobBase_init hw, ⟨trivial, hinit⟩, fun q phq hq => by cases hq⟩ hrun hall
    exact hwithin

theorem starts_within_maxAttempts_oneWorker :
    ∃ c, (jobPlatform Nat).run (Config.init { clock := 0 }) (oneWorker []) = some c ∧
      hasStarted c = true ∧ Always putsBackUnstarted c.past ∧ Always startsWithinAttempts c.past := by
  obtain ⟨c, hrun, hc⟩ : ∃ c, (jobPlatform Nat).run (Config.init { clock := 0 }) (oneWorker []) =
      some c ∧ (hasStarted c && decide (Always answersPlainly c.past) &&
        decide (Always readsUnfinished c.past) && decide (Always startsStanding c.past)) = true :=
    exists_of_run (by decide +kernel)
  simp only [Bool.and_eq_true, decide_eq_true_eq] at hc
  obtain ⟨⟨⟨hstarted, hanswers⟩, hreads⟩, hstanding⟩ := hc
  obtain ⟨hputs, hwithin⟩ := starts_within_maxAttempts rfl hrun hanswers
  exact ⟨c, hrun, hstarted, hputs, hwithin hreads hstanding⟩

/-! ### A handler whose own error is taken for the authority's -/

/-- A host with an authorizer and a handler for `report` jobs. -/
def reportHost : JobHost where
  authority := some { application := "app", authorizer := true, credentials := false }
  registered := ["report"]

def ada : VerifiedPrincipal :=
  mintedPrincipal { principalId := "ada", principalType := "user", tenantId := "acme" } .host 0

/-- An allow of the authorizer, for `ada` of `acme`. -/
def allows (decisionId capability uri : String) : Choice :=
  .decision false (.ok (.obj [
    ("decision_id", .str decisionId), ("allowed", .bool true), ("capability", .str capability),
    ("tenant_id", .str "acme"), ("application_id", .str "app"),
    ("subject", .obj [("id", .str "ada")]), ("resource", .obj [("uri", .str uri)])]))

/-- The next answers a process gets. -/
def answering (pid : Nat) (choices : List Choice) : List (jobPlatform Nat).Action :=
  choices.map (.step pid)

/-- One execution of the job `j1`: it is claimed and authorized, its handler is started,
and rejects because an effect it nested found no authority. -/
def rejectedRun (pid : Nat) (row decisionId : String) : List (jobPlatform Nat).Action :=
  .spawn ⟨reportHost, .executeJob "acme" "j1" "w"⟩ :: answering pid ([
    .proceed, .proceed, .proceed, .proceed, .proceed, .proceed, .proceed, .proceed, .proceed, .proceed,
    allows decisionId "jobs.execute" "appport://app/tenants/acme/job/j1", .proceed, .proceed,
    .proceed, .proceed, .proceed, .draw row, .proceed, .proceed,
    .host (.error (serviceError .authorityUnavailable "AuthBoundry authorization failed")),
    .proceed, .proceed, .proceed, .proceed, .proceed, .proceed])

/-- A job with one attempt is created and executed twice. -/
def nestedRefusal : List (jobPlatform Nat).Action :=
  .spawn ⟨reportHost, .enqueue { type := "report", maxAttempts := some 1 } (.of ada)⟩ ::
    answering 0 [.proceed, .draw "request", .proceed, .proceed, .proceed, .proceed,
      allows "d1" "jobs.create" "appport://app/tenants/acme/job/*", .proceed, .proceed, .proceed,
      .proceed, .proceed, .draw "row1", .proceed, .draw "j1", .proceed, .proceed, .draw "a1", .proceed,
      .proceed, .proceed, .proceed, .proceed] ++
    rejectedRun 1 "row2" "d2" ++ [.env (.tick 1000)] ++ rejectedRun 2 "row3" "d3"

/-- The attempt is not counted although the handler was started, and the only attempt
is made twice. -/
theorem nestedRefusal_is_uncounted :
    ∃ c, (jobPlatform Nat).run (Config.init { clock := 0, verified := [ada], nextRef := 1 })
        nestedRefusal = some c ∧
      ¬ Always putsBackUnstarted c.past ∧ ¬ Always startsWithinAttempts c.past := by
  obtain ⟨c, hrun, hc⟩ : ∃ c, (jobPlatform Nat).run
      (Config.init { clock := 0, verified := [ada], nextRef := 1 }) nestedRefusal = some c ∧
      (decide (¬ Always putsBackUnstarted c.past) &&
        decide (¬ Always startsWithinAttempts c.past)) = true := exists_of_run (by decide +kernel)
  simp only [Bool.and_eq_true, decide_eq_true_eq] at hc
  exact ⟨c, hrun, hc⟩

end AppPort
