import AppPort.Jobs.Attempts
import AppPort.Lib.Numbering

/-!
# Run ids

`executeJob` numbers a run by the attempts that were counted before it. Every claim takes
the next number, and starts its run under it, or gives it up. That names one run as long
as a number that was used is counted before the next claim. It is not where a run was
settled without being counted (completed, denied, or put back because an authority was
not available) and its job is claimed again, and it is not where a job is reset that was
run before.
-/

namespace AppPort

open Effects Effects.Platform

variable {τ : Type} [Timestamp τ]

/-! ## Runs and their ids -/

/-- The run a step starts, and what its handler is told of it. -/
def startedRun : (jobPlatform τ).Step → Option (Job τ × JobExecution τ)
  | ⟨_, .host (.startJobHandler job (some execution)), _, _, _⟩ => some (job, execution)
  | _ => none

/-- The run ids handlers were started with. -/
def runIds : (jobPlatform τ).History → List String
  | [] => []
  | .stopped _ _ :: past => runIds past
  | .ran _ step :: past => ((startedRun step).map fun r => r.2.runId).toList ++ runIds past

/-- A run of the job was started. -/
def wasRun (id : String) : (jobPlatform τ).Event → Bool
  | .ran _ step => (startedRun step).any fun r => r.1.id == id
  | .stopped _ _ => false

/-- A call of the claim. -/
def AppOp.claimsJob : AppOp τ → Bool
  | .jobs (.claim ..) => true
  | _ => false

/-- The process has started a run since it last claimed a job. -/
def runStarted (pid : Nat) : (jobPlatform τ).History → Bool
  | [] => false
  | .stopped _ _ :: past => runStarted pid past
  | .ran q step :: past =>
    if q = pid then !step.op.claimsJob && ((startedRun step).isSome || runStarted pid past)
    else runStarted pid past

/-- The job was settled without being counted, after a run of it was started, and
nothing was counted since. -/
def leftUncounted (id : String) : (jobPlatform τ).History → Bool
  | [] => false
  | .stopped _ _ :: past => leftUncounted id past
  | .ran pid step :: past =>
    match writesTo id step with
    | none => leftUncounted id past
    | some u =>
      if changed id step.before step.after then
        u.attemptCount.isNone && (leftUncounted id past || runStarted pid past)
      else leftUncounted id past

/-- The job was reset after a run of it was started. -/
def countsAgain (id : String) : (jobPlatform τ).History → Bool
  | [] => false
  | .stopped _ _ :: past => countsAgain id past
  | .ran _ step :: past => countsAgain id past || (resets id step && past.any (wasRun id))

/-- The process claimed the job since it was created or last reset, when no run of it was
left uncounted, and none was started before a reset. -/
def claimsFresh (pid : Nat) (id : String) : (jobPlatform τ).History → Bool
  | [] => false
  | .stopped _ _ :: past => claimsFresh pid id past
  | .ran q step :: past =>
    if resets id step || inserts id step then false
    else if q = pid ∧ claims id step = true then !leftUncounted id past && !countsAgain id past
    else claimsFresh pid id past

/-- **The condition.** A run is started under a claim that was made when every earlier run
of the job was counted, and when the job was not reset after one. -/
def startsCounted (older : (jobPlatform τ).History) : (jobPlatform τ).Event → Bool
  | .ran pid step => (startedRun step).all fun r => claimsFresh pid r.1.id older
  | .stopped _ _ => true

/-! ## Their numbers -/

/-- A step as the numbers of a job's runs see it. -/
inductive RunAct where
  /-- The job is created or reset. -/
  | renewed
  /-- It is claimed, for the run of this number. -/
  | claimed (number : Nat)
  | started (number : Nat)
  /-- It is settled or put back, and the run of this number is not counted. -/
  | putBack (number : Nat)
  | other
  deriving DecidableEq

/-- The number of the run the step claims the job for, when its process learns so. -/
def claimNumber (id : String) : (jobPlatform τ).Step → Option Nat
  | ⟨_, .jobs (.claim _ key _ _), .ok (some job), _, _⟩ =>
    if key = id then some (job.attemptCount + 1) else none
  | _ => none

/-- The number of the run of the job the step starts. -/
def startNumber (id : String) (step : (jobPlatform τ).Step) : Option Nat :=
  match startedRun step with
  | some r => if r.1.id = id then some (r.1.attemptCount + 1) else none
  | none => none

/-- The number of the run the step settles without counting it. -/
def putBackNumber (id : String) (step : (jobPlatform τ).Step) : Option Nat :=
  match writesTo id step, step.before.jobs.get id with
  | some u, some job =>
    if u.attemptCount.isNone && changed id step.before step.after then some (job.attemptCount + 1)
    else none
  | _, _ => none

def runAct (id : String) (step : (jobPlatform τ).Step) : RunAct :=
  if resets id step || inserts id step then .renewed
  else
    match claimNumber id step, startNumber id step, putBackNumber id step with
    | some n, _, _ => .claimed n
    | _, some n, _ => .started n
    | _, _, some n => .putBack n
    | none, none, none => .other

/-- The numbers of the job's runs: those of the claims that may start one, and those of
the runs that were started. -/
def runsOf (id : String) : (jobPlatform τ).History → Numbering
  | [] => {}
  | .stopped _ _ :: past => runsOf id past
  | .ran pid step :: past =>
    match runAct id step with
    | .renewed => (runsOf id past).void
    | .claimed n =>
      if leftUncounted id past || countsAgain id past then runsOf id past
      else (runsOf id past).take pid n
    | .started n => (runsOf id past).use pid n
    | .putBack n => (runsOf id past).drop pid n
    | .other => runsOf id past

/-- The record's counter: someone is busy while the job is running. -/
def Job.counter (job : Job τ) : Numbering.Counter := ⟨job.attemptCount, job.status == .running⟩

section step

variable {id : String} {past : (jobPlatform τ).History} {pid : Nat} {step : (jobPlatform τ).Step}
  {choice : Choice}

theorem startNumber_eq_some {n : Nat} (h : startNumber id step = some n) :
    ∃ r, startedRun step = some r ∧ r.1.id = id ∧ n = r.1.attemptCount + 1 := by
  unfold startNumber at h
  split at h
  · next r hr =>
    split at h
    · next hid =>
      obtain rfl := Option.some.inj h
      exact ⟨r, hr, hid, rfl⟩
    · cases h
  · cases h

theorem startNumber_of_runAct {n : Nat} (h : runAct id step = .started n) :
    startNumber id step = some n := by
  unfold runAct at h
  split at h
  · cases h
  split at h
  · cases h
  · next hstart _ =>
    cases h
    exact hstart
  · cases h
  · cases h

theorem putBackNumber_of_runAct {n : Nat} (h : runAct id step = .putBack n) :
    putBackNumber id step = some n := by
  unfold runAct at h
  split at h
  · cases h
  split at h
  · cases h
  · cases h
  · next hput _ _ =>
    cases h
    exact hput
  · cases h

theorem claims_claimsJob (h : claims id step = true) : step.op.claimsJob = true := by
  unfold claims at h
  split at h
  · rfl
  · cases h

theorem startedRun_startedJob {r : Job τ × JobExecution τ} (h : startedRun step = some r) :
    startedJob step = some r.1 := by
  unfold startedRun at h
  split at h
  · obtain rfl := Option.some.inj h
    rfl
  · cases h

variable (past pid) in
/-- A call that leaves the record alone is at most a start. -/
theorem runAct_of_unchanged
    (hexec : AppOp.exec step.op choice step.before = some (step.res, step.after))
    (h : changed id step.before step.after = false) :
    (runAct id step = .other ∨ ∃ n, startNumber id step = some n ∧ runAct id step = .started n) ∧
      leftUncounted id (.ran pid step :: past) = leftUncounted id past ∧
      countsAgain id (.ran pid step :: past) = countsAgain id past := by
  have hact := actOn_of_unchanged hexec h
  have hrenewed : (resets id step || inserts id step) = false := by
    by_contra hrenewed
    rw [Bool.not_eq_false] at hrenewed
    rw [actOn, if_pos hrenewed] at hact
    rcases hact with hact | hact <;> cases hact
  have hclaims : claims id step = false := by
    by_contra hclaims
    rw [Bool.not_eq_false] at hclaims
    rw [actOn, hrenewed, if_neg Bool.false_ne_true, if_pos hclaims] at hact
    rcases hact with hact | hact <;> cases hact
  have hclaim : claimNumber id step = none := by
    unfold claimNumber
    split
    · exact if_neg fun hkey => by simp [claims, hkey] at hclaims
    · rfl
  have hput : putBackNumber id step = none := by
    unfold putBackNumber
    split
    · rw [h, Bool.and_false]
      rfl
    · rfl
  refine ⟨?_, ?_, ?_⟩
  · cases hstart : startNumber id step with
    | none => exact .inl (by simp [runAct, hrenewed, hclaim, hstart, hput])
    | some n => exact .inr ⟨n, rfl, by simp [runAct, hrenewed, hclaim, hstart]⟩
  · simp only [leftUncounted]
    split
    · rfl
    · rw [h]
      rfl
  · have hresets : resets id step = false := (Bool.or_eq_false_iff.mp hrenewed).1
    simp [countsAgain, hresets]

variable (past pid) in
/-- What a conditional update that goes through is to the runs of its job. -/
theorem runAct_update {tenantId : String} {v : Nat} {u : JobUpdate τ} {job : Job τ}
    (hop : step.op = .jobs (.updateJob tenantId id v u)) (hold : step.before.jobs.get id = some job)
    (hnew : step.after.jobs.get id = some (u.written job)) :
    (runAct id step = if u.status = some .pending then .renewed
      else if u.attemptCount = none then .putBack (job.attemptCount + 1) else .other) ∧
    leftUncounted id (.ran pid step :: past) =
      (u.attemptCount.isNone && (leftUncounted id past || runStarted pid past)) ∧
    countsAgain id (.ran pid step :: past) =
      (countsAgain id past || (u.status == some .pending && past.any (wasRun id))) := by
  obtain ⟨call, op, res, before, after⟩ := step
  subst hop
  have hold : before.jobs.get id = some job := hold
  have hnew : after.jobs.get id = some (u.written job) := hnew
  have hchanged : changed id before after = true := by simp [changed, hold, hnew]
  refine ⟨?_, ?_, ?_⟩
  · by_cases hp : u.status = some .pending
    · simp [runAct, resets, hp, hchanged]
    · by_cases hc : u.attemptCount = none
      · simp [runAct, resets, inserts, claimNumber, startNumber, startedRun, putBackNumber, writesTo,
          hp, hc, hchanged, hold]
      · simp [runAct, resets, inserts, claimNumber, startNumber, startedRun, putBackNumber, writesTo,
          hp, hc, hold]
  · simp [leftUncounted, writesTo, hchanged]
  · simp [countsAgain, resets, hchanged]

variable (past pid) in
/-- What a claim is to the runs of its job. -/
theorem runAct_claim {tenantId : String} {v : Nat} {lease : τ} {job : Job τ}
    (hop : step.op = .jobs (.claim tenantId id v lease))
    (hold : step.before.jobs.get id = some job) (hv : job.version = v)
    (hexec : AppOp.exec step.op choice step.before = some (step.res, step.after)) :
    (runAct id step = .other ∨
      runAct id step = .claimed (job.attemptCount + 1) ∧ claims id step = true) ∧
    leftUncounted id (.ran pid step :: past) = leftUncounted id past ∧
    countsAgain id (.ran pid step :: past) = countsAgain id past := by
  obtain ⟨call, op, res, before, after⟩ := step
  subst hop
  replace hold : before.jobs.get id = some job := hold
  refine ⟨?_, rfl, ?_⟩
  · rcases res with e | ⟨_ | job'⟩
    · exact .inl (by simp [runAct, resets, inserts, claimNumber, startNumber, startedRun,
        putBackNumber, writesTo, hold])
    · exact .inl (by simp [runAct, resets, inserts, claimNumber, startNumber, startedRun,
        putBackNumber, writesTo, hold])
    · right
      obtain ⟨old, hget, -, hnew, -⟩ := exec_claim hexec
      have hget : before.jobs.get id = some old := hget
      rw [hget] at hold
      obtain rfl := Option.some.inj hold
      simp [runAct, resets, inserts, claimNumber, claims, hget, hnew, claimUpdate]
  · simp [countsAgain, resets]

/-- A step that neither claims nor starts leaves what is said of its process. -/
theorem runStarted_cons {q : Nat}
    (h : q ≠ pid ∨ step.op.claimsJob = false ∧ startedRun step = none) :
    runStarted q (.ran pid step :: past) = runStarted q past := by
  simp only [runStarted]
  split
  · next hq =>
    rcases h with h | ⟨hclaims, hstart⟩
    · exact absurd hq.symm h
    · rw [hclaims, hstart]
      rfl
  · rfl

/-- A claim that is fresh after a step was, unless it is this one. -/
theorem claimsFresh_cons {q : Nat} (h : claimsFresh q id (.ran pid step :: past) = true) :
    runAct id step ≠ .renewed ∧
      (q = pid ∧ claims id step = true → leftUncounted id past = false ∧ countsAgain id past = false) ∧
      (¬ (q = pid ∧ claims id step = true) → claimsFresh q id past = true) := by
  simp only [claimsFresh] at h
  split at h
  · cases h
  · next hrenewed =>
    refine ⟨?_, ?_⟩
    · intro hact
      rw [runAct, if_neg hrenewed] at hact
      split at hact <;> cases hact
    · split at h
      · next hq =>
        rw [Bool.and_eq_true, Bool.not_eq_true', Bool.not_eq_true'] at h
        exact ⟨fun _ => h, fun hnot => absurd ⟨hq.1.symm, hq.2⟩ hnot⟩
      · next hq =>
        exact ⟨fun hboth => absurd ⟨hboth.1.symm, hboth.2⟩ hq, fun _ => h⟩

end step

/-- Numbers are used by runs that are started. -/
theorem used_of_wasRun {id : String} {past : (jobPlatform τ).History}
    (h : past.any (wasRun id) = false) : (runsOf id past).used = [] := by
  induction past with
  | nil => rfl
  | cons e past ih =>
    obtain ⟨hrun, hpast⟩ := Bool.or_eq_false_iff.mp h
    have hused := ih hpast
    cases e with
    | stopped pid call => exact hused
    | ran pid step =>
      have hstart : startNumber id step = none := by
        cases hstart : startNumber id step with
        | none => rfl
        | some n =>
          obtain ⟨r, hr, hid, -⟩ := startNumber_eq_some hstart
          simp [wasRun, hr, hid] at hrun
      simp only [runsOf]
      split
      · exact hused
      · split
        · exact hused
        · exact hused
      · next n hact =>
        rw [startNumber_of_runAct hact] at hstart
        cases hstart
      · exact hused
      · exact hused

/-! ## What a process knows of the numbers -/

/-- The stored record is still the copy. -/
def Current (w : World τ) (id : String) (job : Job τ) : Prop :=
  ∃ stored, w.jobs.get id = some stored ∧ stored.version = job.version

/-- As long as a claim's run is not started, giving it up leaves the numbers counted. -/
def MayGiveUp (w : World τ) (past : (jobPlatform τ).History) (pid : Nat) (id : String)
    (job : Job τ) : Prop :=
  runStarted pid past = false → Current w id job → leftUncounted id past = false →
    countsAgain id past = false →
    ((runsOf id past).drop pid (job.attemptCount + 1)).Upto job.attemptCount

/-- What is known of a process that works on a job. -/
def NumberSound (w : World τ) (past : (jobPlatform τ).History) (pid : Nat) : JobPhase τ → Prop
  | .counted id job => Current w id job → countsAgain id past = false →
      (runsOf id past).Upto job.attemptCount
  | .claimed id job => runStarted pid past = false ∧ MayGiveUp w past pid id job ∧
      (claimsFresh pid id past = true → (pid, job.attemptCount + 1) ∈ (runsOf id past).out)
  | .started id job | .answered id job _ => MayGiveUp w past pid id job
  | _ => True

/-- The numbers of every job follow its record. -/
def AllFollow (w : World τ) (past : (jobPlatform τ).History) : Prop :=
  ∀ id, (runsOf id past).Follows ((w.jobs.get id).map Job.counter) (leftUncounted id past)
    (countsAgain id past)

section step

variable {past : (jobPlatform τ).History} {pid : Nat} {step : (jobPlatform τ).Step}
  {choice : Choice}

theorem runsOf_of_unchanged {id : String}
    (hexec : AppOp.exec step.op choice step.before = some (step.res, step.after))
    (hopen : ∀ id n, startNumber id step = some n → (pid, n) ∈ (runsOf id past).out)
    (h : changed id step.before step.after = false) :
    runsOf id (.ran pid step :: past) = runsOf id past ∨
      ∃ n, startNumber id step = some n ∧ (pid, n) ∈ (runsOf id past).out ∧
        runsOf id (.ran pid step :: past) = (runsOf id past).use pid n := by
  obtain ⟨hact | ⟨n, hstart, hact⟩, -, -⟩ := runAct_of_unchanged past pid hexec h
  · exact .inl (by simp [runsOf, hact])
  · exact .inr ⟨n, hstart, hopen id n hstart, by simp [runsOf, hact]⟩

theorem MayGiveUp.stay {q : Nat} {id : String} {job : Job τ}
    (h : MayGiveUp step.before past q id job) (hheld : Held step.before id job)
    (hexec : AppOp.exec step.op choice step.before = some (step.res, step.after))
    (hopen : ∀ id n, startNumber id step = some n → (pid, n) ∈ (runsOf id past).out)
    (hq : q ≠ pid ∨ step.op.claimsJob = false ∧ startedRun step = none) :
    MayGiveUp step.after (.ran pid step :: past) q id job := by
  rintro hrun ⟨stored, hget, hv⟩ hleft hagain
  obtain ⟨hold, hun⟩ := hheld.unchanged (exec_fence_jobs hexec) hget hv
  obtain ⟨-, hleft', hagain'⟩ := runAct_of_unchanged past pid hexec hun
  rw [runStarted_cons hq] at hrun
  rw [hleft'] at hleft
  rw [hagain'] at hagain
  have hupto := h hrun ⟨stored, hold, hv⟩ hleft hagain
  rcases runsOf_of_unchanged hexec hopen hun with hsame | ⟨n, hstart, hmem, huse⟩
  · rw [hsame]
    exact hupto
  · rw [huse, Numbering.drop_use_comm]
    refine hupto.use ?_
    have hne : (pid, n) ≠ (q, job.attemptCount + 1) := by
      intro heq
      rcases hq with hq | ⟨-, hnone⟩
      · exact hq (congrArg Prod.fst heq).symm
      · obtain ⟨r, hr, -⟩ := startNumber_eq_some hstart
        rw [hnone] at hr
        cases hr
    exact (List.mem_erase_of_ne hne).mpr hmem

/-- A number that is out stays out, whatever others do. -/
theorem out_cons {q m : Nat} {id : String} (h : (q, m) ∈ (runsOf id past).out)
    (hact : runAct id step ≠ .renewed)
    (hq : q ≠ pid ∨ startNumber id step = none ∧ putBackNumber id step = none) :
    (q, m) ∈ (runsOf id (.ran pid step :: past)).out := by
  have hne : ∀ n, startNumber id step = some n ∨ putBackNumber id step = some n →
      (q, m) ≠ (pid, n) := by
    intro n hn heq
    rcases hq with hq | ⟨hstart, hput⟩
    · exact hq (congrArg Prod.fst heq)
    · rw [hstart, hput] at hn
      rcases hn with hn | hn <;> cases hn
  cases hcase : runAct id step with
  | renewed => exact absurd hcase hact
  | claimed n =>
    simp only [runsOf, hcase]
    split
    · exact h
    · exact List.mem_cons_of_mem _ h
  | started n =>
    simp only [runsOf, hcase]
    exact (List.mem_erase_of_ne (hne n (.inl (startNumber_of_runAct hcase)))).mpr h
  | putBack n =>
    simp only [runsOf, hcase]
    exact (List.mem_erase_of_ne (hne n (.inr (putBackNumber_of_runAct hcase)))).mpr h
  | other =>
    simp only [runsOf, hcase]
    exact h

theorem NumberSound.stay {q : Nat} {phq : JobPhase τ} (h : NumberSound step.before past q phq)
    (hbase : phq.Sound step.before)
    (hexec : AppOp.exec step.op choice step.before = some (step.res, step.after))
    (hopen : ∀ id n, startNumber id step = some n → (pid, n) ∈ (runsOf id past).out)
    (hq : q ≠ pid ∨ step.op.claimsJob = false ∧ startedRun step = none ∧
      ∀ id, writesTo id step = none) :
    NumberSound step.after (.ran pid step :: past) q phq := by
  have hq' : q ≠ pid ∨ step.op.claimsJob = false ∧ startedRun step = none :=
    hq.imp (fun h => h) fun h => ⟨h.1, h.2.1⟩
  cases phq with
  | idle | read | judged | owned => trivial
  | started id job | answered id job => exact MayGiveUp.stay h hbase.1 hexec hopen hq'
  | counted id job =>
    rintro ⟨stored, hget, hv⟩ hagain
    obtain ⟨hold, hun⟩ := hbase.1.unchanged (exec_fence_jobs hexec) hget hv
    obtain ⟨-, -, hagain'⟩ := runAct_of_unchanged past pid hexec hun
    rw [hagain'] at hagain
    have hupto := h ⟨stored, hold, hv⟩ hagain
    rcases runsOf_of_unchanged hexec hopen hun with hsame | ⟨n, -, hmem, huse⟩
    · rw [hsame]
      exact hupto
    · rw [huse]
      exact hupto.use hmem
  | claimed id job =>
    obtain ⟨hrun, hgive, hfresh⟩ := h
    refine ⟨?_, hgive.stay hbase.1 hexec hopen hq', fun hnew => ?_⟩
    · rw [runStarted_cons hq']
      exact hrun
    · obtain ⟨hact, -, hold⟩ := claimsFresh_cons hnew
      have hpast : claimsFresh q id past = true := by
        refine hold fun hboth => ?_
        rcases hq with hne | ⟨hclaimsJob, -⟩
        · exact hne hboth.1
        · rw [claims_claimsJob hboth.2] at hclaimsJob
          cases hclaimsJob
      refine out_cons (hfresh hpast) hact (hq.imp (fun h => h) fun h => ⟨?_, ?_⟩)
      · simp [startNumber, h.2.1]
      · simp [putBackNumber, h.2.2 id]

/-- A step that concerns no run is none of the three. -/
theorem steady_runs (hop : step.op.isQuiet = true ∨ (∃ job, step.op = .jobs (.create job)) ∨
    ∃ ops, step.op = .commit ops) :
    step.op.claimsJob = false ∧ startedRun step = none ∧ ∀ id, writesTo id step = none := by
  obtain ⟨call, op, res, before, after⟩ := step
  rcases hop with hop | ⟨job, rfl⟩ | ⟨ops, rfl⟩
  · cases op with
    | jobs o =>
      cases o with
      | create | claim | updateJob => cases hop
      | _ => exact ⟨rfl, rfl, fun _ => rfl⟩
    | host o =>
      cases o with
      | startJobHandler => cases hop
      | _ => exact ⟨rfl, rfl, fun _ => rfl⟩
    | _ => exact ⟨rfl, rfl, fun _ => rfl⟩
  · exact ⟨rfl, rfl, fun _ => rfl⟩
  · exact ⟨rfl, rfl, fun _ => rfl⟩

theorem numberSound_own {ph ph' : JobPhase τ} (hstep : JobStep ph step ph')
    (hbase : ph.Sound step.before) (h : NumberSound step.before past pid ph)
    (hall : AllFollow step.before past)
    (hexec : AppOp.exec step.op choice step.before = some (step.res, step.after))
    (hopen : ∀ id n, startNumber id step = some n → (pid, n) ∈ (runsOf id past).out) :
    NumberSound step.after (.ran pid step :: past) pid ph' := by
  cases hstep with
  | quiet hop => exact h.stay hbase hexec hopen (.inr (steady_runs (.inl hop)))
  | create hop _ => exact h.stay hbase hexec hopen (.inr (steady_runs (.inr hop)))
  | fetch | judge | exhaust | giveUp | own | reset => trivial
  | answer | settle => exact MayGiveUp.stay h hbase.1 hexec hopen (.inr ⟨rfl, rfl⟩)
  | @start call id job execution res before after hrun =>
    cases execution with
    | none => exact MayGiveUp.stay h.2.1 hbase.1 hexec hopen (.inr ⟨rfl, rfl⟩)
    | some execution =>
      intro hstarted
      simp [runStarted, AppOp.claimsJob, startedRun] at hstarted
  | @count call tenantId id job t u res before after _ habandoned hmore hstatus hcount _ hto =>
    subst hto
    rcases res with e | ⟨_ | job'⟩
    · trivial
    · trivial
    · obtain ⟨old, hget, hv, hnew, hget'⟩ := exec_updateJob hexec
      obtain rfl := hbase.1.current hget hv
      obtain ⟨hact, -, hagain⟩ := runAct_update past pid rfl hget (hnew ▸ hget')
      intro _ hagain'
      rw [hagain, hstatus] at hagain'
      have hpast : countsAgain id past = false := (Bool.or_eq_false_iff.mp hagain').1
      have hfollows := hall id
      rw [show before.jobs.get id = some old from hget] at hfollows
      have hupto := hfollows.upto hpast
      simp only [runsOf, hact, hstatus, hcount]
      rw [hnew]
      simpa [hcount, Job.counter] using hupto
  | @claim call tenantId id job lease res before after _ _ hfrom hto =>
    subst hto
    rcases res with e | ⟨_ | job'⟩
    · trivial
    · trivial
    · obtain ⟨old, hget, hv, hnew, hget'⟩ := exec_claim hexec
      have hheld : Held before id job := by
        rcases hfrom with rfl | ⟨t, rfl, -⟩
        · exact hbase.1
        · exact hbase.1
      obtain rfl := hheld.current hget hv
      obtain ⟨hact, hleft, hagain⟩ := runAct_claim past pid rfl hget rfl hexec
      obtain ⟨hclaimed, hclaims⟩ : runAct id ⟨call, .jobs (.claim tenantId id old.version lease),
          .ok (some job'), before, after⟩ = .claimed (old.attemptCount + 1) ∧ _ :=
        hact.resolve_left fun hother => by
          simp [runAct, resets, inserts, claimNumber, show before.jobs.get id = some old from hget]
            at hother
      have hnumber : job'.attemptCount = old.attemptCount := by rw [hnew]; rfl
      refine ⟨by simp [runStarted, AppOp.claimsJob], ?_, ?_⟩
      · rintro - - hleft' hagain'
        rw [hleft] at hleft'
        rw [hagain] at hagain'
        have hupto : (runsOf id past).Upto old.attemptCount := by
          rcases hfrom with rfl | ⟨t, rfl, habandoned, hidle⟩
          · exact h ⟨old, hget, rfl⟩ hagain'
          · have hfollows := hall id
            rw [show before.jobs.get id = some old from hget] at hfollows
            refine hfollows.settled hagain' hleft' old.counter rfl ?_
            have hnot : old.status ≠ .running := fun hrunning => hidle hrunning hheld.unowned
            simpa [Job.counter] using hnot
        simp only [runsOf, hclaimed, hleft', hagain', Bool.or_self, Bool.false_eq_true, if_false,
          hnumber, Numbering.drop_take]
        exact hupto
      · intro hfresh
        obtain ⟨-, hclaim, -⟩ := claimsFresh_cons hfresh
        obtain ⟨hleft', hagain'⟩ := hclaim ⟨rfl, hclaims⟩
        simp only [runsOf, hclaimed, hleft', hagain', Bool.or_self, Bool.false_eq_true, if_false,
          hnumber]
        exact List.mem_cons_self

/-- A merge keeps the numbers in order. -/
theorem follows_merge {id : String} {job : Job τ} {u : JobUpdate τ} {ph ph' : JobPhase τ}
    (hstep : JobStep ph step ph') (hbase : ph.Sound step.before)
    (h : NumberSound step.before past pid ph)
    (hexec : AppOp.exec step.op choice step.before = some (step.res, step.after))
    (hold : step.before.jobs.get id = some job)
    (hnew : step.after.jobs.get id = some (u.written job))
    (hop : (∃ tenantId, step.op = .jobs (.updateJob tenantId id job.version u)) ∨
      ∃ tenantId lease, step.op = .jobs (.claim tenantId id job.version lease) ∧
        u = claimUpdate step.before.clock lease)
    (hfollows : (runsOf id past).Follows (some job.counter) (leftUncounted id past)
      (countsAgain id past)) :
    (runsOf id (.ran pid step :: past)).Follows (some (u.written job).counter)
      (leftUncounted id (.ran pid step :: past)) (countsAgain id (.ran pid step :: past)) := by
  have hupdate : u.status ≠ some .running →
      ∃ tenantId, step.op = .jobs (.updateJob tenantId id job.version u) := by
    intro hrunning
    rcases hop with hop | ⟨_, _, -, rfl⟩
    · exact hop
    · exact absurd rfl hrunning
  -- an update that raises the counter
  have hcounts : u.status ≠ some .running → u.status ≠ some .pending →
      u.attemptCount = some (job.attemptCount + 1) →
      (runsOf id (.ran pid step :: past)).Follows (some (u.written job).counter)
        (leftUncounted id (.ran pid step :: past)) (countsAgain id (.ran pid step :: past)) := by
    intro hrunning hpending hcount
    obtain ⟨tenantId, hop⟩ := hupdate hrunning
    obtain ⟨hact, -, hagain⟩ := runAct_update past pid hop hold hnew
    rw [if_neg hpending, if_neg (by simp [hcount])] at hact
    have hpend : (u.status == some .pending) = false := by simpa using hpending
    rw [hpend, Bool.false_and, Bool.or_false] at hagain
    simp only [runsOf, hact, hagain]
    exact hfollows.count (by simp [Job.counter, hcount])
  -- one that does not, by a process that may have used its number
  have hputs : u.status ≠ some .running → u.status ≠ some .pending → u.attemptCount = none →
      MayGiveUp step.before past pid id job →
      (runsOf id (.ran pid step :: past)).Follows (some (u.written job).counter)
        (leftUncounted id (.ran pid step :: past)) (countsAgain id (.ran pid step :: past)) := by
    intro hrunning hpending hcount hgive
    obtain ⟨tenantId, hop⟩ := hupdate hrunning
    obtain ⟨hact, hleft, hagain⟩ := runAct_update past pid hop hold hnew
    rw [if_neg hpending, if_pos hcount] at hact
    have hpend : (u.status == some .pending) = false := by simpa using hpending
    rw [hpend, Bool.false_and, Bool.or_false] at hagain
    simp only [runsOf, hact, hagain]
    refine hfollows.drop (by simp [Job.counter, hcount]) fun hagain' hleft' _ => ?_
    rw [hleft, hcount, Option.isNone_none, Bool.true_and, Bool.or_eq_false_iff] at hleft'
    exact hgive hleft'.2 ⟨job, hold, rfl⟩ hleft'.1 hagain'
  have hsettles : Settles job u → MayGiveUp step.before past pid id job →
      (runsOf id (.ran pid step :: past)).Follows (some (u.written job).counter)
        (leftUncounted id (.ran pid step :: past)) (countsAgain id (.ran pid step :: past)) := by
    intro hu hgive
    cases hu with
    | completed hstatus hcount =>
      exact hputs (by simp [hstatus]) (by simp [hstatus]) hcount hgive
    | putBack hstatus hcount =>
      exact hputs (by simp [hstatus]) (by simp [hstatus]) hcount hgive
    | retried hstatus hcount _ => exact hcounts (by simp [hstatus]) (by simp [hstatus]) hcount
    | failed hstatus hcount =>
      rcases hcount with hcount | hcount
      · exact hputs (by simp [hstatus]) (by simp [hstatus]) hcount hgive
      · exact hcounts (by simp [hstatus]) (by simp [hstatus]) hcount
  cases hstep.merged hbase hexec hold hop with
  | exhausted _ hstatus hcount => exact hcounts (by simp [hstatus]) (by simp [hstatus]) hcount
  | counted _ _ hstatus hcount => exact hcounts (by simp [hstatus]) (by simp [hstatus]) hcount
  | gaveUp hu _ => exact hsettles hu h.2.1
  | settled hu _ => exact hsettles hu h
  | reset hu =>
    subst hu
    obtain ⟨tenantId, hop⟩ := hupdate (by simp [JobService.resetUpdate])
    obtain ⟨hact, -, hagain⟩ := runAct_update past pid hop hold hnew
    rw [if_pos (by simp [JobService.resetUpdate])] at hact
    simp only [runsOf, hact]
    refine hfollows.restart fun hagain' => ?_
    rw [hagain] at hagain'
    have hwas := (Bool.or_eq_false_iff.mp hagain').2
    exact used_of_wasRun (by simpa [JobService.resetUpdate] using hwas)
  | claimed hfrom hstatus hcount =>
    have hbusy : (u.written job).counter.busy = true := by simp [Job.counter, hstatus]
    have hkept : (u.written job).counter.count = job.counter.count := by simp [Job.counter, hcount]
    rcases hop with ⟨tenantId, hop⟩ | ⟨tenantId, lease, hop, -⟩
    · obtain ⟨hact, -, hagain⟩ := runAct_update past pid hop hold hnew
      rw [if_neg (by simp [hstatus]), if_pos hcount] at hact
      have hpend : (u.status == some .pending) = false := by simp [hstatus]
      rw [hpend, Bool.false_and, Bool.or_false] at hagain
      simp only [runsOf, hact, hagain]
      refine hfollows.drop hkept fun _ _ hidle => ?_
      rw [hbusy] at hidle
      cases hidle
    · obtain ⟨hact, hleft, hagain⟩ := runAct_claim past pid hop hold rfl hexec
      rw [hleft, hagain]
      rcases hact with hact | ⟨hact, -⟩
      · simp only [runsOf, hact]
        exact hfollows.busy hkept hbusy
      · simp only [runsOf, hact]
        split
        · exact hfollows.busy hkept hbusy
        · next hspent =>
          obtain ⟨hleft', hagain'⟩ := Bool.or_eq_false_iff.mp (Bool.eq_false_iff.mpr hspent)
          refine hfollows.take ?_ hkept hbusy
          rcases hfrom with rfl | ⟨t, rfl, -, hidle⟩
          · exact h ⟨job, hold, rfl⟩ hagain'
          · refine hfollows.settled hagain' hleft' job.counter rfl ?_
            have hnot : job.status ≠ .running := fun hrunning => hidle hrunning hbase.1.unowned
            simpa [Job.counter] using hnot

theorem allFollow_step {ph ph' : JobPhase τ} (hall : AllFollow step.before past)
    (hstep : JobStep ph step ph') (hbase : ph.Sound step.before)
    (h : NumberSound step.before past pid ph)
    (hexec : AppOp.exec step.op choice step.before = some (step.res, step.after))
    (hopen : ∀ id n, startNumber id step = some n → (pid, n) ∈ (runsOf id past).out) :
    AllFollow step.after (.ran pid step :: past) := by
  intro id
  rcases exec_job hexec id with hsame | ⟨new, hmem, -, habsent, hget⟩ | ⟨old, u, hop, hold, hget⟩
  · have hun := changed_of_same hsame
    obtain ⟨-, hleft, hagain⟩ := runAct_of_unchanged past pid hexec hun
    rw [hsame, hleft, hagain]
    rcases runsOf_of_unchanged hexec hopen hun with hruns | ⟨n, -, hout, hruns⟩
    · rw [hruns]
      exact hall id
    · rw [hruns]
      exact (hall id).use hout
  · have hact : runAct id step = .renewed := by simp [runAct, inserts, habsent, hget]
    have hfollows := hall id
    rw [habsent] at hfollows
    rw [hget]
    simp only [runsOf, hact]
    refine hfollows.restart fun hagain => ?_
    have hpast : countsAgain id past = false := (Bool.or_eq_false_iff.mp hagain).1
    exact (List.append_eq_nil_iff.mp (hfollows.absent hpast)).1
  · have hfollows := hall id
    rw [hold] at hfollows
    rw [hget]
    exact follows_merge hstep hbase h hexec hold hget hop hfollows

/-- The run a step starts has a number that is out. -/
theorem out_of_started {ph ph' : JobPhase τ} (hstep : JobStep ph step ph')
    (hbase : ph.Sound step.before) (h : NumberSound step.before past pid ph)
    (hcond : startsCounted past (.ran pid step) = true) {r : Job τ × JobExecution τ}
    (hstart : startedRun step = some r) :
    (pid, r.1.attemptCount + 1) ∈ (runsOf r.1.id past).out := by
  obtain ⟨id, rfl, -⟩ := hstep.starts (startedRun_startedJob hstart)
  simp only [startsCounted, hstart, Option.all_some] at hcond
  obtain rfl := hbase.1.id_eq
  exact h.2.2 hcond

/-! ## Their names -/

/-- Run ids are different, and name numbers that were used. -/
def NamesRuns (past : (jobPlatform τ).History) : Prop :=
  (runIds past).Nodup ∧ ∀ runId ∈ runIds past, ∃ id n, runId = id ++ ":" ++ toString n ∧
    n ∈ (runsOf id past).used

theorem used_cons {id : String} {n : Nat} (h : n ∈ (runsOf id past).used) :
    n ∈ (runsOf id (.ran pid step :: past)).used := by
  simp only [runsOf]
  split
  · exact h
  · split
    · exact h
    · exact h
  · exact List.mem_cons_of_mem _ h
  · exact h
  · exact h

/-- What a start is to the runs of its job. -/
theorem runAct_started {r : Job τ × JobExecution τ}
    (hexec : AppOp.exec step.op choice step.before = some (step.res, step.after))
    (h : startedRun step = some r) : runAct r.1.id step = .started (r.1.attemptCount + 1) := by
  have hnumber : startNumber r.1.id step = some (r.1.attemptCount + 1) := by
    simp [startNumber, h]
  unfold startedRun at h
  split at h
  · next call job execution res before after =>
    have hsame : after = before := (HostOp.startJobHandler job (some execution)).exec_world hexec
    have hkept : inserts r.1.id ⟨call, .host (.startJobHandler job (some execution)), res, before,
        after⟩ = false := by
      rw [hsame]
      cases hget : before.jobs.get r.1.id <;> simp [inserts, hget]
    simp [runAct, resets, hkept, claimNumber, hnumber]
  · cases h

/-- A run is started under the id of its claim. -/
theorem JobStep.names {ph ph' : JobPhase τ} (h : JobStep ph step ph') {r : Job τ × JobExecution τ}
    (hstart : startedRun step = some r) :
    r.2.runId = r.1.id ++ ":" ++ toString (r.1.attemptCount + 1) := by
  cases h with
  | quiet hop =>
    rw [(steady_runs (.inl hop)).2.1] at hstart
    cases hstart
  | create hop _ =>
    rw [(steady_runs (.inr hop)).2.1] at hstart
    cases hstart
  | @start _ _ job execution _ _ _ hrun =>
    cases execution with
    | none => cases hstart
    | some execution =>
      obtain rfl := Option.some.inj hstart
      exact hrun execution rfl
  | _ => cases hstart

theorem namesRuns_step {ph ph' : JobPhase τ} (hstep : JobStep ph step ph')
    (hbase : ph.Sound step.before) (h : NumberSound step.before past pid ph)
    (hall : AllFollow step.before past) (hnames : NamesRuns past)
    (hexec : AppOp.exec step.op choice step.before = some (step.res, step.after))
    (hcond : startsCounted past (.ran pid step) = true) : NamesRuns (.ran pid step :: past) := by
  have hkept : ∀ runId ∈ runIds past, ∃ id n, runId = id ++ ":" ++ toString n ∧
      n ∈ (runsOf id (.ran pid step :: past)).used := by
    intro runId hmem
    obtain ⟨id, n, hname, hused⟩ := hnames.2 runId hmem
    exact ⟨id, n, hname, used_cons hused⟩
  cases hstart : startedRun step with
  | none => exact ⟨by simpa [runIds, hstart] using hnames.1, by simpa [runIds, hstart] using hkept⟩
  | some r =>
    have hout := out_of_started hstep hbase h hcond hstart
    have hname := hstep.names hstart
    have hids : runIds (.ran pid step :: past) = r.2.runId :: runIds past := by
      simp [runIds, hstart]
    rw [NamesRuns, hids]
    refine ⟨List.nodup_cons.mpr ⟨fun hmem => ?_, hnames.1⟩, fun runId hmem => ?_⟩
    · obtain ⟨id, n, hname', hused⟩ := hnames.2 _ hmem
      rw [hname] at hname'
      obtain ⟨rfl, rfl⟩ := numbered_inj hname'
      exact (hall _).distinct.unused hout hused
    · rcases List.mem_cons.mp hmem with rfl | hmem
      · refine ⟨_, _, hname, ?_⟩
        simp only [runsOf, runAct_started hexec hstart]
        exact List.mem_cons_self
      · exact hkept runId hmem

theorem open_of_numbered {ph ph' : JobPhase τ} (hstep : JobStep ph step ph')
    (hbase : ph.Sound step.before) (h : NumberSound step.before past pid ph)
    (hcond : startsCounted past (.ran pid step) = true) (id : String) (n : Nat)
    (hstart : startNumber id step = some n) : (pid, n) ∈ (runsOf id past).out := by
  obtain ⟨r, hr, rfl, rfl⟩ := startNumber_eq_some hstart
  exact out_of_started hstep hbase h hcond hr

end step

theorem numbers_inductive : (jobProtocol τ).LocalOver
    (fun older e => startsCounted older e = true) JobBase
    (fun w past => NamesRuns past ∧ AllFollow w past) NumberSound where
  spawn _ _ _ := trivial
  good := by
    intro past phases pid step ph ph' h
    obtain ⟨choice, hexec⟩ := h.exec
    have hbase := h.base.2 pid ph h.here
    exact ⟨namesRuns_step h.next hbase h.own h.good.2 h.good.1 hexec h.cond,
      allFollow_step h.good.2 h.next hbase h.own hexec
        (open_of_numbered h.next hbase h.own h.cond)⟩
  own := by
    intro past phases pid step ph ph' h
    obtain ⟨choice, hexec⟩ := h.exec
    have hbase := h.base.2 pid ph h.here
    exact numberSound_own h.next hbase h.own h.good.2 hexec
      (open_of_numbered h.next hbase h.own h.cond)
  other := by
    intro past phases pid step ph ph' q phq h hne hq
    obtain ⟨choice, hexec⟩ := h.exec
    exact (h.sound q phq hq).stay (h.base.2 q phq hq) hexec
      (open_of_numbered h.next (h.base.2 pid ph h.here) h.own h.cond) (.inl hne)
  stopGood hgood _ := hgood
  stopOther {_ _ _ _ _ phq} _ h := by
    cases phq <;> exact h
  envGood {w w' past} move hgood henv := by
    refine ⟨hgood.1, fun id => ?_⟩
    rw [jobEnv_jobs henv]
    exact hgood.2 id
  envSound {w w' past q phq} move _ h henv := by
    have hcurrent : ∀ id job, Current w' id job → Current w id job := by
      rintro id job ⟨stored, hget, hv⟩
      rw [jobEnv_jobs henv] at hget
      exact ⟨stored, hget, hv⟩
    cases phq with
    | idle | read | judged | owned => trivial
    | counted id job => exact fun hcur => h (hcurrent id job hcur)
    | claimed id job => exact ⟨h.1, fun hrun hcur => h.2.1 hrun (hcurrent id job hcur), h.2.2⟩
    | started id job | answered id job => exact fun hrun hcur => h hrun (hcurrent id job hcur)

/-- Jobs that are stored at first, and no run yet. -/
theorem allFollow_init (w : World τ) : AllFollow w ([] : (jobPlatform τ).History) :=
  fun _ => Numbering.follows_nil

/-- **The runs of a job have run ids of their own** where they are started under claims
that were made when every earlier run of the job was counted. -/
theorem job_runIds_nodup {w : World τ} (hw : w.jobs = Table.empty)
    {as : List (jobPlatform τ).Action} {c : (jobPlatform τ).Config}
    (hrun : (jobPlatform τ).run (Config.init w) as = some c) (hcond : Always startsCounted c.past) :
    (runIds c.past).Nodup := by
  obtain ⟨phases, ⟨-, ⟨⟨hnodup, -⟩, -⟩, -⟩, -⟩ := Discipline.sound jobProtocol_obeyed
    ((jobBase _).and numbers_inductive.toInductive)
    ⟨jobBase_init hw, ⟨⟨List.nodup_nil, fun _ h => absurd h List.not_mem_nil⟩, allFollow_init w⟩,
      fun q phq hq => by cases hq⟩ hrun hcond
  exact hnodup

end AppPort
