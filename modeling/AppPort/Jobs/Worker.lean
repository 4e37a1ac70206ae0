import AppPort.Authority.Basic
import AppPort.Lib.Machine

/-!
# The job worker

`JobWorker`: a loop that polls for due jobs, and executes them beside each other up to its
concurrency. It is a machine over what its host runs, one event at a time: a call of
`start` or `stop`, a timer, a promise that has settled. What `executeJob` does is the job
service's.
-/

namespace AppPort

open Effects

/-! ## The worker -/

structure JobWorker where
  workerId : String
  tenantId : String
  concurrency : Int := 10

/-- What it calls. -/
inductive WorkerCall where
  | listDue (tenantId : String)
  | executeJob (tenantId jobId workerId : String)
  deriving DecidableEq, Repr

/-- Its fields, and what is under way. -/
structure WorkerState where
  running : Bool := false
  activeJobs : Int := 0
  pollTimer : Option Nat := none
  /-- The timers that are set and have not fired. -/
  timers : List Nat := []
  /-- How many were set so far. -/
  timerCount : Nat := 0
  /-- The calls of `work` that await `listDue`. -/
  listing : Nat := 0
  /-- The calls of `work` that have settled, and whose callback has not run. -/
  worked : Nat := 0
  /-- The calls of `executeJob` whose callback has not run. -/
  executing : Nat := 0
  deriving DecidableEq, Repr

inductive WorkerEvent where
  | start
  | stop
  | fire (timer : Nat)
  /-- `listDue` settles; of the jobs only the ids are read. -/
  | listed (due : Except JsError (List String))
  /-- The callback of `work`. -/
  | worked
  /-- The callback of `executeJob`. -/
  | executed

namespace JobWorker

variable (worker : JobWorker)

/-- The head of the loop of `work`. -/
def work (s : WorkerState) : WorkerState × List WorkerCall :=
  if s.running = true ∧ s.activeJobs < worker.concurrency then
    ({ s with listing := s.listing + 1 }, [.listDue worker.tenantId])
  else ({ s with worked := s.worked + 1 }, [])

/-- `poll`. -/
def poll (s : WorkerState) : WorkerState × List WorkerCall :=
  if s.running then worker.work s else (s, [])

/-- `start`. -/
def start (s : WorkerState) : WorkerState × List WorkerCall :=
  if s.running then (s, []) else worker.poll { s with running := true }

/-- `stop`. -/
def stop (s : WorkerState) : WorkerState :=
  match s.pollTimer with
  | some timer => { s with running := false, timers := s.timers.erase timer, pollTimer := none }
  | none => { s with running := false }

/-- `scheduleNextPoll`. -/
def scheduleNextPoll (s : WorkerState) : WorkerState :=
  if s.running then
    { s with pollTimer := some s.timerCount, timers := s.timers ++ [s.timerCount]
             timerCount := s.timerCount + 1 }
  else s

/-- The body of the loop, once `listDue` has settled. -/
def listed (due : Except JsError (List String)) (s : WorkerState) : WorkerState × List WorkerCall :=
  match due with
  | .ok (jobId :: _) =>
    let (s', calls) := worker.work
      { s with activeJobs := s.activeJobs + 1, executing := s.executing + 1 }
    (s', .executeJob worker.tenantId jobId worker.workerId :: calls)
  | _ => ({ s with worked := s.worked + 1 }, [])

/-- **The worker**, one event at a time. -/
def machine : Machine WorkerState WorkerEvent WorkerCall where
  step
    | s, .start => some (worker.start s)
    | s, .stop => some (stop s, [])
    | s, .fire timer =>
      if timer ∈ s.timers then some (worker.poll { s with timers := s.timers.erase timer }) else none
    | s, .listed due =>
      if 0 < s.listing then some (worker.listed due { s with listing := s.listing - 1 }) else none
    | s, .worked =>
      if 0 < s.worked then some (scheduleNextPoll { s with worked := s.worked - 1 }, []) else none
    | s, .executed =>
      if 0 < s.executing then
        some ({ s with executing := s.executing - 1, activeJobs := s.activeJobs - 1 }, [])
      else none

end JobWorker

/-- The polls that are under way: each awaits its list, its callback or its timer. -/
def WorkerState.polls (s : WorkerState) : Nat := s.listing + s.worked + s.timers.length

/-- The event starts a worker that does not run. -/
def startsPoll (s : WorkerState) : WorkerEvent → Bool
  | .start => !s.running
  | _ => false

namespace JobWorker

variable {worker : JobWorker} {s s' : WorkerState} {n : Nat} {calls : List WorkerCall}

theorem work_room (h : s.running = true ∧ s.activeJobs < worker.concurrency) :
    worker.work s = ({ s with listing := s.listing + 1 }, [.listDue worker.tenantId]) := if_pos h

theorem work_full (h : ¬ (s.running = true ∧ s.activeJobs < worker.concurrency)) :
    worker.work s = ({ s with worked := s.worked + 1 }, []) := if_neg h

theorem poll_running (h : s.running = true) : worker.poll s = worker.work s := if_pos h

theorem poll_stopped (h : s.running = false) : worker.poll s = (s, []) := by
  unfold poll
  rw [h]
  rfl

/-! ## What every state satisfies -/

/-- After `n` starts: every job that is executed is counted, every start has at most one
poll under way, a worker that runs has one, and no poll awaits a list that there was no room
for. -/
structure Sound (worker : JobWorker) (s : WorkerState) (n : Nat) : Prop where
  counted : s.activeJobs = s.executing
  single : s.polls ≤ n
  polling : s.running = true → 0 < s.polls
  room : s.activeJobs + s.listing ≤ max 0 (worker.concurrency - 1 + n)

/-- The head of the loop, reached by a poll that awaited something else before. -/
theorem sound_work (hcounted : s.activeJobs = s.executing) (hsingle : s.polls + 1 ≤ n)
    (hroom : s.activeJobs + s.listing ≤ max 0 (worker.concurrency - 1 + n)) :
    worker.Sound (worker.work s).1 n := by
  unfold WorkerState.polls at hsingle
  by_cases hgo : s.running = true ∧ s.activeJobs < worker.concurrency
  · rw [work_room hgo]
    -- there was room, and the other polls are at most the other starts
    constructor <;> simp only [WorkerState.polls] <;> omega
  · rw [work_full hgo]
    constructor <;> simp only [WorkerState.polls] <;> omega

theorem sound_poll (hcounted : s.activeJobs = s.executing) (hsingle : s.polls + 1 ≤ n)
    (hroom : s.activeJobs + s.listing ≤ max 0 (worker.concurrency - 1 + n)) :
    worker.Sound (worker.poll s).1 n := by
  by_cases hrunning : s.running = true
  · rw [poll_running hrunning]
    exact sound_work hcounted hsingle hroom
  · rw [poll_stopped (Bool.eq_false_iff.mpr hrunning)]
    refine ⟨hcounted, ?_, fun h => absurd h hrunning, hroom⟩
    show s.polls ≤ n
    omega

theorem Sound.start (h : worker.Sound s n) :
    worker.Sound (worker.start s).1 (n + if startsPoll s .start then 1 else 0) := by
  unfold JobWorker.start
  by_cases hrunning : s.running = true
  · have hgoes : ¬ startsPoll s .start = true := by simp [startsPoll, hrunning]
    rw [if_pos hrunning, if_neg hgoes]
    exact h
  · have hstarts : startsPoll s .start = true := by simp [startsPoll, hrunning]
    have hroom := h.room
    have hsingle := h.single
    rw [if_neg hrunning, if_pos hstarts]
    refine sound_poll h.counted ?_ ?_
    · show s.polls + 1 ≤ n + 1
      omega
    · show s.activeJobs + s.listing ≤ max 0 (worker.concurrency - 1 + (n + 1 : Nat))
      omega

theorem Sound.stop (h : worker.Sound s n) : worker.Sound (JobWorker.stop s) n := by
  have hsingle := h.single
  unfold WorkerState.polls at hsingle
  unfold JobWorker.stop
  cases s.pollTimer with
  | none => exact ⟨h.counted, h.single, fun hrunning => Bool.noConfusion hrunning, h.room⟩
  | some timer =>
    have hfewer := List.length_erase_le (a := timer) (l := s.timers)
    refine ⟨h.counted, ?_, fun hrunning => Bool.noConfusion hrunning, h.room⟩
    simp only [WorkerState.polls]
    omega

theorem Sound.fire {timer : Nat} (h : worker.Sound s n) (htimer : timer ∈ s.timers) :
    worker.Sound (worker.poll { s with timers := s.timers.erase timer }).1 n := by
  have hsingle := h.single
  unfold WorkerState.polls at hsingle
  have hfewer := List.length_erase_of_mem htimer
  have hset := List.length_pos_of_mem htimer
  refine sound_poll h.counted ?_ h.room
  simp only [WorkerState.polls]
  omega

theorem Sound.listed {due : Except JsError (List String)} (h : worker.Sound s n)
    (hlisting : 0 < s.listing) :
    worker.Sound (worker.listed due { s with listing := s.listing - 1 }).1 n := by
  have hcounted := h.counted
  have hroom := h.room
  have hsingle := h.single
  unfold WorkerState.polls at hsingle
  have hsettled : worker.Sound { s with listing := s.listing - 1, worked := s.worked + 1 } n := by
    constructor <;> simp only [WorkerState.polls] <;> omega
  unfold JobWorker.listed
  split
  · next jobId rest =>
    refine sound_work ?_ ?_ ?_
    · show s.activeJobs + 1 = ((s.executing + 1 : Nat) : Int)
      omega
    · simp only [WorkerState.polls]
      omega
    · show s.activeJobs + 1 + ((s.listing - 1 : Nat) : Int) ≤ _
      omega
  · exact hsettled

theorem Sound.worked (h : worker.Sound s n) (hworked : 0 < s.worked) :
    worker.Sound (scheduleNextPoll { s with worked := s.worked - 1 }) n := by
  have hsingle := h.single
  unfold WorkerState.polls at hsingle
  unfold scheduleNextPoll
  by_cases hrunning : s.running = true
  · rw [if_pos hrunning]
    refine ⟨h.counted, ?_, fun _ => ?_, h.room⟩
    · simp only [WorkerState.polls, List.length_append, List.length_singleton]
      omega
    · simp only [WorkerState.polls, List.length_append, List.length_singleton]
      omega
  · rw [if_neg hrunning]
    refine ⟨h.counted, ?_, fun h => absurd h hrunning, h.room⟩
    simp only [WorkerState.polls]
    omega

theorem Sound.executed (h : worker.Sound s n) (hexecuting : 0 < s.executing) :
    worker.Sound { s with executing := s.executing - 1, activeJobs := s.activeJobs - 1 } n := by
  have hcounted := h.counted
  have hroom := h.room
  refine ⟨?_, h.single, h.polling, ?_⟩
  · show s.activeJobs - 1 = ((s.executing - 1 : Nat) : Int)
    omega
  · show s.activeJobs - 1 + (s.listing : Int) ≤ _
    omega

/-- **One event.** -/
theorem Sound.step {event : WorkerEvent} (h : worker.Sound s n)
    (hstep : worker.machine.step s event = some (s', calls)) :
    worker.Sound s' (n + if startsPoll s event then 1 else 0) := by
  cases event with
  | start =>
    obtain rfl : (worker.start s).1 = s' := congrArg Prod.fst (Option.some.inj hstep)
    exact h.start
  | stop =>
    obtain rfl : JobWorker.stop s = s' := congrArg Prod.fst (Option.some.inj hstep)
    exact h.stop
  | fire timer =>
    simp only [machine] at hstep
    split at hstep
    · next htimer =>
      obtain rfl := congrArg Prod.fst (Option.some.inj hstep)
      exact h.fire htimer
    · cases hstep
  | listed due =>
    simp only [machine] at hstep
    split at hstep
    · next hlisting =>
      obtain rfl := congrArg Prod.fst (Option.some.inj hstep)
      exact h.listed hlisting
    · cases hstep
  | worked =>
    simp only [machine] at hstep
    split at hstep
    · next hworked =>
      obtain rfl := congrArg Prod.fst (Option.some.inj hstep)
      exact h.worked hworked
    · cases hstep
  | executed =>
    simp only [machine] at hstep
    split at hstep
    · next hexecuting =>
      obtain rfl := congrArg Prod.fst (Option.some.inj hstep)
      exact h.executed hexecuting
    · cases hstep

/-- **Runs.** -/
theorem sound_of_run {events : List WorkerEvent}
    (hrun : worker.machine.run {} events = some (s, calls)) :
    worker.Sound s (worker.machine.count startsPoll {} events) := by
  have hinit : worker.Sound {} 0 := by
    constructor <;> simp [WorkerState.polls]
  have h : worker.Sound s (0 + worker.machine.count startsPoll {} events) :=
    Machine.run_invariant (I := fun s n => worker.Sound s n)
      (fun _ _ _ _ _ hsound hstep => hsound.step hstep) hinit hrun
  rwa [Nat.zero_add] at h

/-! ## How many jobs are executed beside each other -/

/-- Some run with this many starts leads there. -/
def Reaches (worker : JobWorker) (s : WorkerState) (starts : Nat) (s' : WorkerState) : Prop :=
  ∃ events calls, worker.machine.run s events = some (s', calls) ∧
    worker.machine.count startsPoll s events = starts

theorem Reaches.refl : worker.Reaches s 0 s := ⟨[], [], rfl, rfl⟩

theorem Reaches.trans {s₁ : WorkerState} {starts starts' : Nat} (h : worker.Reaches s starts s₁)
    (h' : worker.Reaches s₁ starts' s') : worker.Reaches s (starts + starts') s' := by
  obtain ⟨events, calls, hrun, hcount⟩ := h
  obtain ⟨events', calls', hrun', hcount'⟩ := h'
  refine ⟨events ++ events', calls ++ calls', Machine.run_append hrun hrun', ?_⟩
  rw [Machine.count_append hrun, hcount, hcount']

theorem Reaches.of_step {event : WorkerEvent} (h : worker.machine.step s event = some (s', calls)) :
    worker.Reaches s (if startsPoll s event then 1 else 0) s' := by
  refine ⟨[event], calls ++ [], Machine.run_cons.mpr ⟨s', calls, [], h, rfl, rfl⟩, ?_⟩
  simp [Machine.count, h]

/-- A worker that runs, with so many jobs and lists under way, and no timer. -/
structure Busy (s : WorkerState) (active : Int) (listing : Nat) : Prop where
  running : s.running = true
  active : s.activeJobs = active
  listing : s.listing = listing
  untimed : s.pollTimer = none

/-- A listed job is executed, and another list is asked for while there is room. -/
theorem busy_listed (worker : JobWorker) {active : Int} {listing : Nat} (h : Busy s active (listing + 1)) :
    ∃ s', worker.Reaches s 0 s' ∧
      Busy s' (active + 1) (if active + 1 < worker.concurrency then listing + 1 else listing) := by
  have hlisting : 0 < s.listing := by
    rw [h.listing]
    exact Nat.succ_pos listing
  have hstep : worker.machine.step s (.listed (.ok ["job"])) =
      some (worker.listed (.ok ["job"]) { s with listing := s.listing - 1 }) := by
    simp only [machine, if_pos hlisting]
  refine ⟨_, Reaches.of_step hstep, ?_⟩
  have hactive : s.activeJobs + 1 = active + 1 := by rw [h.active]
  have hleft : s.listing - 1 = listing := by rw [h.listing, Nat.add_sub_cancel]
  show Busy (worker.work { s with
    listing := s.listing - 1, activeJobs := s.activeJobs + 1, executing := s.executing + 1 }).1 _ _
  rw [hactive, hleft]
  by_cases hroom : active + 1 < worker.concurrency
  · rw [if_pos hroom, work_room]
    · exact ⟨h.running, rfl, rfl, h.untimed⟩
    · exact ⟨h.running, hroom⟩
  · rw [if_neg hroom, work_full]
    · exact ⟨h.running, rfl, rfl, h.untimed⟩
    · exact fun hgo => hroom hgo.2

/-- Stopped and started again, it asks for another list, while the one before is awaited. -/
theorem busy_restarted {active : Int} {listing : Nat} (h : Busy s active listing)
    (hroom : active < worker.concurrency) :
    ∃ s', worker.Reaches s 1 s' ∧ Busy s' active (listing + 1) := by
  have hstop : worker.machine.step s .stop = some ({ s with running := false }, []) := by
    simp [machine, stop, h.untimed]
  have hstart : worker.machine.step { s with running := false } .start =
      some (worker.start { s with running := false }) := rfl
  refine ⟨_, (Reaches.of_step hstop).trans (Reaches.of_step hstart), ?_⟩
  have hgo : s.activeJobs < worker.concurrency := by
    rw [h.active]
    exact hroom
  show Busy (worker.work { s with running := true }).1 _ _
  rw [work_room]
  · exact ⟨rfl, h.active, congrArg (· + 1) h.listing, h.untimed⟩
  · exact ⟨rfl, hgo⟩

/-- It is filled up to its concurrency. -/
theorem busy_filled (worker : JobWorker) {active : Int} {listing : Nat} (count : Nat)
    (h : Busy s active (listing + 1)) (hroom : active + count < worker.concurrency) :
    ∃ s', worker.Reaches s 0 s' ∧ Busy s' (active + count) (listing + 1) := by
  induction count with
  | zero => exact ⟨s, .refl, by simpa using h⟩
  | succ count ih =>
    obtain ⟨s₁, hreaches, hbusy⟩ := ih (by omega)
    obtain ⟨s₂, hlast, hlisted⟩ := busy_listed worker hbusy
    refine ⟨s₂, hreaches.trans hlast, ?_⟩
    have hmore : active + (count : Int) + 1 < worker.concurrency := by omega
    rw [if_pos hmore] at hlisted
    have hsum : active + ((count + 1 : Nat) : Int) = active + count + 1 := by omega
    rw [hsum]
    exact hlisted

/-- It is stopped and started again and again. -/
theorem busy_restartedAgain (worker : JobWorker) {active : Int} {listing : Nat} (count : Nat)
    (h : Busy s active listing) (hroom : active < worker.concurrency) :
    ∃ s', worker.Reaches s count s' ∧ Busy s' active (listing + count) := by
  induction count with
  | zero => exact ⟨s, .refl, h⟩
  | succ count ih =>
    obtain ⟨s₁, hreaches, hbusy⟩ := ih
    obtain ⟨s₂, hlast, hrestarted⟩ := busy_restarted hbusy hroom
    exact ⟨s₂, hreaches.trans hlast, hrestarted⟩

/-- Every list that is awaited yields a job, with no room left. -/
theorem busy_overfilled (worker : JobWorker) {active : Int} (listing : Nat) {s : WorkerState}
    (h : Busy s active listing) (hfull : worker.concurrency ≤ active + 1) :
    ∃ s', worker.Reaches s 0 s' ∧ Busy s' (active + listing) 0 := by
  induction listing generalizing s active with
  | zero => exact ⟨s, .refl, by simpa using h⟩
  | succ listing ih =>
    obtain ⟨s₁, hfirst, hlisted⟩ := busy_listed worker h
    rw [if_neg (by omega)] at hlisted
    obtain ⟨s₂, hrest, hbusy⟩ := ih hlisted (by omega)
    refine ⟨s₂, hfirst.trans hrest, ?_⟩
    have hsum : active + ((listing + 1 : Nat) : Int) = active + 1 + listing := by omega
    rw [hsum]
    exact hbusy

/-- **The concurrency is kept, but for restarts.** In every run the jobs that are executed,
and the lists that are awaited, are at most the concurrency and the starts after the first:
`stop` leaves a poll that awaits its list, and `start` begins another. That many are reached. -/
theorem active_jobs_are_bounded (worker : JobWorker) :
    (∀ events s calls, worker.machine.run {} events = some (s, calls) →
      s.activeJobs = s.executing ∧
      s.activeJobs + s.listing ≤
        max 0 (worker.concurrency - 1 + worker.machine.count startsPoll {} events)) ∧
    ∀ starts : Nat, 0 < worker.concurrency → 0 < starts → ∃ events s calls,
      worker.machine.run {} events = some (s, calls) ∧
        worker.machine.count startsPoll {} events = starts ∧
        s.activeJobs = worker.concurrency - 1 + starts := by
  constructor
  · intro events s calls hrun
    have hsound := sound_of_run hrun
    exact ⟨hsound.counted, hsound.room⟩
  · intro starts hconcurrency hstarts
    obtain ⟨more, rfl⟩ := Nat.exists_eq_succ_of_ne_zero (Nat.ne_of_gt hstarts)
    have hstart : worker.machine.step {} .start = some (worker.start {}) := rfl
    have hstarted : Busy (worker.start {}).1 0 (0 + 1) := by
      show Busy (worker.work { running := true }).1 _ _
      rw [work_room]
      · exact ⟨rfl, rfl, rfl, rfl⟩
      · exact ⟨rfl, hconcurrency⟩
    obtain ⟨s₁, hfirst, hfilled⟩ := busy_filled worker
      (worker.concurrency - 1).toNat hstarted (by omega)
    obtain ⟨s₂, hagain, hrestarted⟩ := busy_restartedAgain worker more hfilled (by omega)
    obtain ⟨s₃, hlast, hover⟩ := busy_overfilled worker _ hrestarted (by omega)
    obtain ⟨events, calls, hrun, hcount⟩ :=
      (((Reaches.of_step hstart).trans hfirst).trans hagain).trans hlast
    refine ⟨events, s₃, calls, hrun, ?_, ?_⟩
    · rw [hcount]
      simp [startsPoll]
      omega
    · rw [hover.active]
      push_cast
      omega

/-- A worker that executes one job at a time. -/
def singleWorker : JobWorker where
  workerId := "worker-1"
  tenantId := "acme"
  concurrency := 1

/-- Stopped and started while it awaits a list, it executes two jobs beside each other. -/
theorem active_jobs_are_bounded_restarted :
    (2 : Int) + 0 ≤ max 0 (1 - 1 + singleWorker.machine.count startsPoll {}
      [.start, .stop, .start, .listed (.ok ["a"]), .listed (.ok ["b"])]) ∧
    ∃ events s calls, singleWorker.machine.run {} events = some (s, calls) ∧
      singleWorker.machine.count startsPoll {} events = 2 ∧ s.activeJobs = 1 - 1 + 2 := by
  obtain ⟨hbound, hreached⟩ := active_jobs_are_bounded singleWorker
  have hrun : (singleWorker.machine.run {}
      [.start, .stop, .start, .listed (.ok ["a"]), .listed (.ok ["b"])]).map Prod.fst =
        some { running := true, activeJobs := 2, worked := 2, executing := 2 } := by decide
  obtain ⟨⟨s, calls⟩, htaken, hs⟩ := Option.map_eq_some_iff.mp hrun
  obtain ⟨-, hroom⟩ := hbound _ s calls htaken
  rw [show s = { running := true, activeJobs := 2, worked := 2, executing := 2 } from hs] at hroom
  exact ⟨hroom, hreached 2 (by decide) (by decide)⟩

/-! ## How long it polls -/

/-- What its own timers and callbacks bring. -/
def ownEvent : WorkerEvent → Bool
  | .fire _ | .worked => true
  | _ => false

/-- The jobs that are executed. -/
def executes (calls : List WorkerCall) : Nat :=
  calls.countP fun call => match call with
    | .executeJob .. => true
    | .listDue _ => false

/-- A worker that runs and has room asks for a list when its timer fires. -/
theorem asks_fire (worker : JobWorker) (timer : Nat) (hrunning : s.running = true)
    (hroom : s.activeJobs < worker.concurrency) (htimer : timer ∈ s.timers) :
    ∃ s' calls, worker.machine.step s (.fire timer) = some (s', calls) ∧
      .listDue worker.tenantId ∈ calls := by
  have hstep : worker.machine.step s (.fire timer) =
      some ({ s with timers := s.timers.erase timer, listing := s.listing + 1 },
        [.listDue worker.tenantId]) := by
    simp only [machine, if_pos htimer]
    rw [poll_running, work_room]
    · exact ⟨hrunning, hroom⟩
    · exact hrunning
  exact ⟨_, _, hstep, List.mem_singleton_self _⟩

/-- **A worker that does not run** executes no more jobs than lists are awaited, and one less
for each list that settles. -/
theorem stopped_step {event : WorkerEvent} (hstart : event ≠ .start) (hstopped : s.running = false)
    (hstep : worker.machine.step s event = some (s', calls)) :
    s'.running = false ∧ executes calls + s'.listing ≤ s.listing := by
  have hfull : ∀ {s₁ : WorkerState}, s₁.running = false →
      worker.work s₁ = ({ s₁ with worked := s₁.worked + 1 }, []) := by
    intro s₁ hs₁
    refine work_full fun hgo => ?_
    rw [hs₁] at hgo
    cases hgo.1
  cases event with
  | start => exact absurd rfl hstart
  | stop =>
    obtain ⟨rfl, rfl⟩ := Prod.mk.inj (Option.some.inj hstep)
    unfold stop
    split <;> exact ⟨rfl, by simp [executes]⟩
  | fire timer =>
    simp only [machine] at hstep
    split at hstep
    · rw [poll_stopped (by exact hstopped)] at hstep
      obtain ⟨rfl, rfl⟩ := Prod.mk.inj (Option.some.inj hstep)
      exact ⟨hstopped, by simp [executes]⟩
    · cases hstep
  | listed due =>
    simp only [machine] at hstep
    split at hstep
    · next hlisting =>
      have hlisted := Option.some.inj hstep
      unfold listed at hlisted
      split at hlisted
      · rw [hfull (by exact hstopped)] at hlisted
        obtain ⟨rfl, rfl⟩ := Prod.mk.inj hlisted
        refine ⟨hstopped, ?_⟩
        show 1 + (s.listing - 1) ≤ s.listing
        omega
      · obtain ⟨rfl, rfl⟩ := Prod.mk.inj hlisted
        refine ⟨hstopped, ?_⟩
        show 0 + (s.listing - 1) ≤ s.listing
        omega
    · cases hstep
  | worked =>
    simp only [machine] at hstep
    split at hstep
    · obtain ⟨rfl, rfl⟩ := Prod.mk.inj (Option.some.inj hstep)
      have hidle : scheduleNextPoll { s with worked := s.worked - 1 } =
          { s with worked := s.worked - 1 } := by
        unfold scheduleNextPoll
        exact if_neg (by simp [hstopped])
      rw [hidle]
      exact ⟨hstopped, by simp [executes]⟩
    · cases hstep
  | executed =>
    simp only [machine] at hstep
    split at hstep
    · obtain ⟨rfl, rfl⟩ := Prod.mk.inj (Option.some.inj hstep)
      exact ⟨hstopped, by simp [executes]⟩
    · cases hstep

/-- **A worker polls until it is stopped.** Whatever was run before: a worker that runs and
has room awaits a list, or its own callbacks and timers make it ask for one within two events;
and once it is stopped it executes, until the next start, at most one job for each list that
it awaited then. -/
theorem worker_polls_until_stopped (worker : JobWorker) {events : List WorkerEvent}
    {s : WorkerState} {calls : List WorkerCall}
    (hrun : worker.machine.run {} events = some (s, calls)) :
    (s.running = true → s.activeJobs < worker.concurrency → 0 < s.listing ∨
      ∃ more s' calls', more.length ≤ 2 ∧ (∀ event ∈ more, ownEvent event = true) ∧
        worker.machine.run s more = some (s', calls') ∧ .listDue worker.tenantId ∈ calls') ∧
    ∀ more s' calls', s.running = false → (∀ event ∈ more, event ≠ .start) →
      worker.machine.run s more = some (s', calls') →
      s'.running = false ∧ executes calls' + s'.listing ≤ s.listing := by
  constructor
  · intro hrunning hroom
    have hpolls := (sound_of_run hrun).polling hrunning
    unfold WorkerState.polls at hpolls
    by_cases hlisting : 0 < s.listing
    · exact .inl hlisting
    right
    by_cases hworked : 0 < s.worked
    · -- the callback sets a timer, which fires
      have hcallback : worker.machine.step s .worked = some ({ s with
          worked := s.worked - 1, pollTimer := some s.timerCount
          timers := s.timers ++ [s.timerCount], timerCount := s.timerCount + 1 }, []) := by
        simp [machine, scheduleNextPoll, hworked, hrunning]
      obtain ⟨s', calls', hfire, hasks⟩ := asks_fire worker s.timerCount
        (s := { s with
          worked := s.worked - 1, pollTimer := some s.timerCount
          timers := s.timers ++ [s.timerCount], timerCount := s.timerCount + 1 })
        hrunning hroom (by simp)
      refine ⟨[.worked, .fire s.timerCount], s', calls', by simp, by simp [ownEvent], ?_, hasks⟩
      refine Machine.run_cons.mpr ⟨_, [], calls', hcallback, ?_, rfl⟩
      exact Machine.run_cons.mpr ⟨s', calls', [], hfire, rfl, by simp⟩
    · obtain ⟨timer, htimer⟩ : ∃ timer, timer ∈ s.timers :=
        List.exists_mem_of_length_pos (by omega)
      obtain ⟨s', calls', hfire, hasks⟩ := asks_fire worker timer hrunning hroom htimer
      refine ⟨[.fire timer], s', calls', by simp, by simp [ownEvent], ?_, hasks⟩
      exact Machine.run_cons.mpr ⟨s', calls', [], hfire, rfl, by simp⟩
  · intro more s' calls' hstopped hadmits hmore
    refine Machine.run_relates (R := fun s out s' => s.running = false →
      s'.running = false ∧ executes out + s'.listing ≤ s.listing) ?_ ?_ hadmits hmore hstopped
    · intro s hs
      exact ⟨hs, by simp [executes]⟩
    · intro s event s₁ first rest s' hstart hstep hrest hs
      obtain ⟨hs₁, hfirst⟩ := stopped_step hstart hs hstep
      obtain ⟨hs', hlater⟩ := hrest hs₁
      refine ⟨hs', ?_⟩
      have hsum : executes (first ++ rest) = executes first + executes rest := List.countP_append ..
      omega

/-- A worker that was started and awaits its list asks; stopped then, it executes one job. -/
theorem worker_polls_until_stopped_awaiting :
    ∃ s calls, singleWorker.machine.run {} [.start, .stop] = some (s, calls) ∧
      ∀ s' calls', singleWorker.machine.run s [.listed (.ok ["a", "b"])] = some (s', calls') →
        s'.running = false ∧ executes calls' + s'.listing ≤ s.listing := by
  have hrun : singleWorker.machine.run {} [.start, .stop] =
      some ({ listing := 1 }, [.listDue "acme"]) := rfl
  refine ⟨_, _, hrun, fun s' calls' hmore => ?_⟩
  obtain ⟨-, hstopped⟩ := worker_polls_until_stopped singleWorker hrun
  refine hstopped [.listed (.ok ["a", "b"])] s' calls' rfl ?_ hmore
  intro event hevent
  rw [List.mem_singleton.mp hevent]
  intro hstart
  cases hstart

end JobWorker

end AppPort
