import AppPort.Authority.Replayed
import AppPort.Jobs.Recurring

/-!
# Cancelling a schedule

`disableSchedule` reads the schedule and writes `enabled: false` once, under the version
it read. Whoever writes the schedule in between, as the scheduler does when it moves it
to its next run, makes the write a no-op, and the call answers `null` as it does for a
schedule that does not exist. The import of a configuration ignores the answer.

`disableSchedule_disables_iff` says when a call disables the schedule it found, for every
call of every run: of a process of its own, or made on the way by an import.
-/

namespace AppPort

open Effects Effects.Platform

variable {τ : Type} [Timestamp τ]

/-! ## What the events show -/

/-- The step looks the schedule up. -/
def readsSchedule (id : String) : (jobPlatform τ).Step → Bool
  | ⟨_, .schedules (.get _ key), _, _, _⟩ => key == id
  | _ => false

/-- The step is a write that disables the schedule. -/
def cancelsSchedule (id : String) : (jobPlatform τ).Step → Bool
  | ⟨_, .schedules (.updateSchedule _ key _ u), _, _, _⟩ => key == id && u.disables
  | _ => false

/-- The event changed the stored schedule. -/
def movesSchedule (id : String) : (jobPlatform τ).Event → Bool
  | .ran _ step => (step.before.schedules.get id).map JobSchedule.version !=
      (step.after.schedules.get id).map JobSchedule.version
  | .stopped _ _ => false

/-- Someone has changed the schedule since the process looked it up. -/
def movedSinceRead (id : String) (pid : Nat) : (jobPlatform τ).History → Bool
  | [] => false
  | .ran q step :: older =>
    !(q == pid && readsSchedule id step) &&
      (movesSchedule id (.ran q step) || movedSinceRead id pid older)
  | .stopped _ _ :: older => movedSinceRead id pid older

/-- What a step of the process may be: it disables the schedule only as it looked it up. -/
def cancelsAsRead (id : String) (pid : Nat) (older : (jobPlatform τ).History) :
    (jobPlatform τ).Event → Bool
  | .ran q step => !(q == pid && cancelsSchedule id step) || !movedSinceRead id pid older
  | .stopped _ _ => true

/-- The schedule is the application's; without an authority every one is. -/
def JobHost.owns (host : JobHost) (schedule : JobSchedule τ) : Prop :=
  ∀ gateway, host.authority = some gateway → schedule.applicationId = some gateway.application

/-- There is such a schedule of the tenant and the application. -/
def HasSchedule (host : JobHost) (tenantId id : String) (w : World τ) : Prop :=
  ∃ schedule, w.schedules.get id = some schedule ∧ schedule.tenantId = tenantId ∧
    host.owns schedule

/-- The stored schedule is disabled. -/
def IsDisabled (id : String) (w : World τ) : Prop :=
  ∃ schedule, w.schedules.get id = some schedule ∧ schedule.enabled = false

/-- **What a cancellation that resolves promises.** A schedule that was there when it was
looked up is disabled, and the answer is not `null`. -/
def Cancels (host : JobHost) (tenantId id : String) (own : List (jobPlatform τ).Step)
    (answer : Option (JobSchedule τ)) (w : World τ) : Prop :=
  ∀ step ∈ own, readsSchedule id step = true → HasSchedule host tenantId id step.before →
    answer ≠ none ∧ IsDisabled id w

/-! ## The steps of one call -/

/-- Calls that do not concern schedules. -/
def unscheduledCalls : Set (AppOp τ) := {op | ∀ o, op ≠ .schedules o}

omit [Timestamp τ] in
theorem authority_unscheduled : authorityCalls ⊆ (unscheduledCalls : Set (AppOp τ)) := by
  rintro _ ⟨o, rfl⟩ o' h
  cases h

/-- The steps do not concern schedules. -/
def Unscheduled (own : List (jobPlatform τ).Step) : Prop := ∀ step ∈ own, step.op ∈ unscheduledCalls

theorem Unscheduled.append {newer older : List (jobPlatform τ).Step} (hn : Unscheduled newer)
    (ho : Unscheduled older) : Unscheduled (newer ++ older) := fun step hmem =>
  (List.mem_append.mp hmem).elim (hn step) (ho step)

theorem Unscheduled.nil : Unscheduled ([] : List (jobPlatform τ).Step) := fun _ h => absurd h List.not_mem_nil

/-- The step looked the schedule up, with this answer. -/
def LooksUp (tenantId id : String) (r : Option (JobSchedule τ)) (step : (jobPlatform τ).Step) :
    Prop := ∃ call before after, step = ⟨call, .schedules (.get tenantId id), .ok r, before, after⟩

/-- The step wrote that the schedule of this version is disabled, with this answer. -/
def WritesOff (tenantId id : String) (version : Nat) (answer : Option (JobSchedule τ))
    (step : (jobPlatform τ).Step) : Prop :=
  ∃ call before after, step = ⟨call, .schedules (.updateSchedule tenantId id version
    { enabled := some false }), .ok answer, before, after⟩

/-- The two ways a cancellation resolves. -/
inductive CancelRun (host : JobHost) (tenantId id : String) (own : List (jobPlatform τ).Step)
    (answer : Option (JobSchedule τ)) : Prop where
  /-- It found no schedule of the application. -/
  | absent (read : (jobPlatform τ).Step) (earlier : List (jobPlatform τ).Step)
      (found : Option (JobSchedule τ)) (hown : own = read :: earlier)
      (hread : LooksUp tenantId id found read) (hfound : ∀ s, found = some s → ¬ host.owns s)
      (hearlier : Unscheduled earlier) (hanswer : answer = none)
  /-- It found one, and wrote once. -/
  | written (later mid earlier : List (jobPlatform τ).Step) (write read : (jobPlatform τ).Step)
      (schedule : JobSchedule τ) (hown : own = later ++ write :: mid ++ read :: earlier)
      (hread : LooksUp tenantId id (some schedule) read) (howned : host.owns schedule)
      (hwrite : WritesOff tenantId id schedule.version answer write)
      (hlater : Unscheduled later) (hmid : Unscheduled mid) (hearlier : Unscheduled earlier)

section ran

variable {host : JobHost} {tenantId scheduleId : String} {own : List (jobPlatform τ).Step}
variable {answer : Option (JobSchedule τ)}

/-- The write of a schedule that was read. -/
theorem ran_disableRead {schedule : JobSchedule τ} {principalId : String}
    (h : Task.Ran (P := jobPlatform τ)
      (JobService.disableRead tenantId scheduleId schedule principalId) own (.ok answer)) :
    ∃ later write, own = later ++ [write] ∧ Unscheduled later ∧
      WritesOff tenantId scheduleId schedule.version answer write := by
  unfold JobService.disableRead at h
  obtain ⟨updated, later, _, rfl, hwrite, hrest⟩ := Task.Ran.bind (P := jobPlatform τ) h
  obtain ⟨call, before, after, rfl⟩ := Task.Ran.perform (P := jobPlatform τ) hwrite
  cases updated with
  | none =>
    obtain ⟨rfl, heq⟩ := hrest
    cases heq
    exact ⟨[], _, rfl, Unscheduled.nil, call, before, after, rfl⟩
  | some s =>
    obtain ⟨t, audits, clock, rfl, hnow, haudits⟩ := Task.Ran.bind (P := jobPlatform τ) hrest
    obtain ⟨_, rest, _, rfl, haudit, hdone⟩ := Task.Ran.bind (P := jobPlatform τ) haudits
    obtain ⟨rfl, heq⟩ := hdone
    cases heq
    refine ⟨_, _, rfl, ?_, call, before, after, rfl⟩
    refine Unscheduled.append (Unscheduled.append Unscheduled.nil ?_) ?_
    · refine Task.Ran.uses (P := jobPlatform τ) haudit (Task.Uses.bind
        (uses_randomUUID.mono authority_unscheduled) fun id => ?_)
      exact Task.uses_perform fun o ho => by cases ho
    · exact Task.Ran.uses (P := jobPlatform τ) hnow (uses_now.mono authority_unscheduled)

/-- **How a cancellation resolves.** -/
theorem ran_disableSchedule {caller : PrincipalInput}
    (h : Task.Ran (P := jobPlatform τ)
      (host.service.disableSchedule tenantId scheduleId caller) own (.ok answer)) :
    CancelRun host tenantId scheduleId own answer := by
  unfold JobService.disableSchedule at h
  have hauthority : (host.service (τ := τ)).authority = host.authority := rfl
  rw [hauthority] at h
  split at h
  · next hnone =>
    obtain ⟨found, later, _, rfl, hread, hrest⟩ := Task.Ran.bind (P := jobPlatform τ) h
    obtain ⟨call, before, after, rfl⟩ := Task.Ran.perform (P := jobPlatform τ) hread
    cases found with
    | none =>
      obtain ⟨rfl, heq⟩ := hrest
      cases heq
      exact .absent _ [] none rfl ⟨call, before, after, rfl⟩ (fun _ hs => by cases hs)
        Unscheduled.nil rfl
    | some schedule =>
      obtain ⟨audits, write, rfl, haudits, hwrite⟩ := ran_disableRead hrest
      refine .written audits [] [] write _ schedule (by simp) ⟨call, before, after, rfl⟩ ?_ hwrite
        haudits Unscheduled.nil Unscheduled.nil
      intro gateway hsome
      rw [hnone] at hsome
      cases hsome
  · next gateway hsome =>
    obtain ⟨principal, _, checks, rfl, hchecks, h⟩ := Task.Ran.bind (P := jobPlatform τ) h
    have hearlier : Unscheduled checks := Task.Ran.uses (P := jobPlatform τ) hchecks
      ((uses_requireVerifiedPrincipal caller).mono authority_unscheduled)
    obtain ⟨tenant, htenant, h⟩ := Task.Ran.ofExcept_bind (P := jobPlatform τ) h
    obtain ⟨-, hnone | htenant⟩ := resolveTenant_eq_ok.mp htenant
    · cases hnone
    obtain rfl := Option.some.inj htenant
    obtain ⟨found, later, _, rfl, hread, hrest⟩ := Task.Ran.bind (P := jobPlatform τ) h
    obtain ⟨call, before, after, rfl⟩ := Task.Ran.perform (P := jobPlatform τ) hread
    cases found with
    | none =>
      obtain ⟨rfl, heq⟩ := hrest
      cases heq
      exact .absent _ checks none (by simp) ⟨call, before, after, rfl⟩
        (fun _ hs => by cases hs) hearlier rfl
    | some schedule =>
      simp only [ite_not] at hrest
      split at hrest
      · next happ =>
        obtain ⟨context, tools, after', ran, before', rfl, hran, hafter, hbefore⟩ := ran_execute hrest
        obtain ⟨audits, write, rfl, haudits, hwrite⟩ := ran_disableRead hran
        have hlater : Unscheduled after' := fun step hmem => authority_unscheduled (hafter step hmem)
        have hmid : Unscheduled before' := fun step hmem => authority_unscheduled (hbefore step hmem)
        refine .written (after' ++ audits) before' checks write _ schedule (by simp)
          ⟨call, before, after, rfl⟩ ?_ hwrite (hlater.append haudits) hmid hearlier
        intro gateway' hgateway
        rw [hsome] at hgateway
        obtain rfl := Option.some.inj hgateway
        exact happ
      · next happ =>
        obtain ⟨rfl, heq⟩ := hrest
        cases heq
        refine .absent _ checks (some schedule) (by simp) ⟨call, before, after, rfl⟩ ?_ hearlier rfl
        intro s hs howns
        obtain rfl := Option.some.inj hs
        exact happ (howns gateway hsome)

end ran

/-! ## What becomes of a schedule -/

/-- No step enables a schedule. -/
def NeverEnables (_ : (jobPlatform τ).History) : (jobPlatform τ).Event → Prop
  | .ran _ step => ∀ id, IsDisabled id step.before → IsDisabled id step.after
  | .stopped _ _ => True

/-- The conditional writes of schedules disable them, or leave that alone. -/
theorem RecurringStep.leavesDisabled {ph ph' : RecurringPhase τ} {step : (jobPlatform τ).Step}
    {tenantId id : String} {v : Nat} {u : ScheduleUpdate τ} (hstep : RecurringStep ph step ph')
    (hop : step.op = .schedules (.updateSchedule tenantId id v u)) :
    u.enabled = some false ∨ u.enabled = none := by
  cases hstep with
  | plain hplain =>
    rw [hop] at hplain
    simp only [AppOp.leavesDue, ScheduleUpdate.disables, Bool.and_eq_true, beq_iff_eq] at hplain
    exact .inl hplain.1
  | advance =>
    cases hop
    exact .inr rfl
  | enqueue | list | create => cases hop

theorem neverEnables_inductive : (recurringProtocol τ).LocalOver (fun _ _ => True)
    (fun _ _ _ => True) (fun _ past => Throughout NeverEnables past) (fun _ _ _ _ => True) where
  spawn _ _ _ := trivial
  good := by
    intro past phases pid step ph ph' h
    obtain ⟨choice, hexec⟩ := h.exec
    refine ⟨fun id hoff => ?_, h.good⟩
    obtain ⟨stored, hget, hdisabled⟩ := hoff
    rcases exec_schedule hexec id with
      hsame | ⟨_, -, -, habsent, -⟩ | ⟨old, tenantId, u, hop, hold, hnew⟩
    · exact ⟨stored, hsame.trans hget, hdisabled⟩
    · rw [hget] at habsent
      cases habsent
    · rw [hget] at hold
      obtain rfl := Option.some.inj hold
      refine ⟨_, hnew, ?_⟩
      rcases h.next.leavesDisabled hop with hu | hu
      · simp [ScheduleUpdate.written, ScheduleUpdate.apply, hu]
      · simpa [ScheduleUpdate.written, ScheduleUpdate.apply, hu] using hdisabled
  own _ := trivial
  other _ _ _ := trivial
  stopGood h _ := ⟨trivial, h⟩
  stopOther _ _ := trivial
  envGood _ h _ := h
  envSound _ _ _ _ := trivial

/-- The schedule stored under an id. -/
abbrev scheduleOf (id : String) (w : World τ) : Option (JobSchedule τ) := w.schedules.get id

section stretch

variable {id : String} {b : Option (JobSchedule τ)} {newer older : (jobPlatform τ).History}

/-- What becomes of a schedule over a stretch of the run: its version counts the moves. -/
theorem schedule_since {schedule : JobSchedule τ}
    (hpast : Throughout (FindsLast (scheduleOf id) b) (newer ++ older))
    (hget : lastView (scheduleOf id) b older = some schedule) :
    ∃ stored, lastView (scheduleOf id) b (newer ++ older) = some stored ∧
      SameSchedule stored schedule ∧ schedule.version ≤ stored.version ∧
      (newer.any (movesSchedule id) = true ↔ schedule.version < stored.version) := by
  induction newer with
  | nil => exact ⟨schedule, hget, SameSchedule.refl _, Nat.le_refl _, by simp⟩
  | cons e newer ih =>
    obtain ⟨stored, hstored, hsame, hle, hmoved⟩ := ih hpast.2
    cases e with
    | stopped pid call => exact ⟨stored, hstored, hsame, hle, by simpa [movesSchedule] using hmoved⟩
    | ran pid step =>
      obtain ⟨⟨hfinds, choice, hexec⟩, -⟩ := hpast
      have hbefore : step.before.schedules.get id = some stored := hfinds.trans hstored
      rcases exec_schedule hexec id with
        hkept | ⟨_, -, -, habsent, -⟩ | ⟨old, tenantId, u, -, hold, hnew⟩
      · refine ⟨stored, hkept.trans hbefore, hsame, hle, ?_⟩
        have hstill : movesSchedule id (.ran pid step) = false := by
          simp [movesSchedule, hkept]
        rw [List.any_cons, hstill, Bool.false_or]
        exact hmoved
      · rw [hbefore] at habsent
        cases habsent
      · rw [hbefore] at hold
        obtain rfl := Option.some.inj hold
        have hmoves : movesSchedule id (.ran pid step) = true := by
          simp [movesSchedule, hbefore, hnew, ScheduleUpdate.written]
        refine ⟨_, hnew, (u.written_same stored).trans hsame, Nat.le_succ_of_le hle, ?_⟩
        rw [List.any_cons, hmoves, Bool.true_or]
        exact iff_of_true rfl (Nat.lt_succ_of_le hle)

/-- A process that has not looked again has the moves of the whole stretch behind it. -/
theorem movedSinceRead_append {pid : Nat} {read : (jobPlatform τ).Step}
    (hread : readsSchedule id read = true)
    (hnone : ∀ step ∈ ownSteps pid newer, readsSchedule id step = false) :
    movedSinceRead id pid (newer ++ .ran pid read :: older) = newer.any (movesSchedule id) := by
  induction newer with
  | nil => simp [movedSinceRead, hread]
  | cons e newer ih =>
    cases e with
    | stopped q call =>
      have hrest := ih hnone
      simpa [movedSinceRead, movesSchedule] using hrest
    | ran q step =>
      by_cases hq : q = pid
      · subst hq
        rw [ownSteps_same] at hnone
        have hrest := ih fun st hst => hnone st (List.mem_cons_of_mem _ hst)
        have hstep := hnone step List.mem_cons_self
        simp [movedSinceRead, hstep, hrest]
      · rw [ownSteps_other step newer hq] at hnone
        have hrest := ih hnone
        simp [movedSinceRead, hq, hrest]

/-- Steps of the process that cancel nothing meet the condition. -/
theorem always_cancelsAsRead_append {pid : Nat}
    (hnone : ∀ step ∈ ownSteps pid newer, cancelsSchedule id step = false) :
    Always (cancelsAsRead id pid) (newer ++ older) ↔ Always (cancelsAsRead id pid) older := by
  induction newer with
  | nil => exact Iff.rfl
  | cons e newer ih =>
    cases e with
    | stopped q call =>
      have hrest := ih hnone
      exact ⟨fun h => hrest.mp h.2, fun h => ⟨rfl, hrest.mpr h⟩⟩
    | ran q step =>
      have hstep : cancelsAsRead id pid (newer ++ older) (.ran q step) = true := by
        by_cases hq : q = pid
        · subst hq
          rw [ownSteps_same] at hnone
          simp [cancelsAsRead, hnone step List.mem_cons_self]
        · simp [cancelsAsRead, hq]
      have hrest := ih fun st hst => hnone st (by
        by_cases hq : q = pid
        · subst hq
          rw [ownSteps_same]
          exact List.mem_cons_of_mem _ hst
        · rw [ownSteps_other step newer hq]
          exact hst)
      exact ⟨fun h => hrest.mp h.2, fun h => ⟨hstep, hrest.mpr h⟩⟩

/-- A disabled schedule is disabled from then on. -/
theorem isDisabled_since (hpast : Throughout (FindsLast (scheduleOf id) b) (newer ++ older))
    (hnever : Throughout NeverEnables (newer ++ older))
    (hoff : ∃ stored, lastView (scheduleOf id) b older = some stored ∧ stored.enabled = false) :
    ∃ stored, lastView (scheduleOf id) b (newer ++ older) = some stored ∧
      stored.enabled = false := by
  refine lastView_of_kept (I := fun s : Option (JobSchedule τ) => ∃ stored, s = some stored ∧
    stored.enabled = false) hpast ?_ hoff
  intro pid step hmem _ hbefore
  obtain ⟨later, earlier, rfl⟩ := List.append_of_mem hmem
  rw [List.append_assoc] at hnever
  exact Throughout.split later hnever id hbefore

end stretch

section answer

variable {tenantId id : String} {v : Nat} {choice : Choice} {w w' : World τ}

/-- A lookup that resolves answers with the tenant's schedule, and changes nothing. -/
theorem exec_getSchedule {found : Option (JobSchedule τ)}
    (h : (AppOp.schedules (.get tenantId id)).exec choice w = some (.ok found, w')) :
    found = (w.schedules.get id).filter (fun s => s.tenantId == tenantId) ∧
      w'.schedules = w.schedules := by
  simp only [AppOp.exec, ScheduleOp.exec] at h
  rcases stored_cases h with ⟨hres, rfl⟩ | ⟨_, hres, -⟩
  · exact ⟨Except.ok.inj hres, rfl⟩
  · cases hres

/-- The write goes through exactly where the version still stands. -/
theorem exec_cancel {answer : Option (JobSchedule τ)} {stored : JobSchedule τ}
    (h : (AppOp.schedules (.updateSchedule tenantId id v { enabled := some false })).exec choice w =
      some (.ok answer, w')) (hget : w.schedules.get id = some stored)
    (htenant : stored.tenantId = tenantId) :
    if stored.version = v then answer ≠ none ∧ IsDisabled id w' else answer = none := by
  simp only [AppOp.exec, ScheduleOp.exec, Table.updateIfVersion, hget, version_schedule] at h
  split
  · next hv =>
    rw [if_pos hv] at h
    rcases stored_cases h with ⟨hres, rfl⟩ | ⟨_, hres, -⟩
    · have hanswer := Except.ok.inj hres
      refine ⟨?_, _, Table.get_put_same .., rfl⟩
      rw [hanswer]
      simp [ofTenant, ScheduleUpdate.apply, htenant]
    · cases hres
  · next hv =>
    rw [if_neg hv] at h
    rcases stored_cases h with ⟨hres, rfl⟩ | ⟨_, hres, -⟩
    · exact Except.ok.inj hres
    · cases hres

end answer

/-! ## Every call -/

theorem Unscheduled.reads {id : String} {own : List (jobPlatform τ).Step} (h : Unscheduled own) :
    ∀ step ∈ own, readsSchedule id step = false := by
  intro step hmem
  have haside := h step hmem
  obtain ⟨call, op, res, before, after⟩ := step
  cases op with
  | schedules o => exact absurd rfl (haside o)
  | _ => rfl

theorem Unscheduled.cancels {id : String} {own : List (jobPlatform τ).Step} (h : Unscheduled own) :
    ∀ step ∈ own, cancelsSchedule id step = false := by
  intro step hmem
  have haside := h step hmem
  obtain ⟨call, op, res, before, after⟩ := step
  cases op with
  | schedules o => exact absurd rfl (haside o)
  | _ => rfl

section calls

variable {host : JobHost} {tenantId id : String} {c : (jobPlatform τ).Config} {pid : Nat}
variable {later during earlier : (jobPlatform τ).History} {answer : Option (JobSchedule τ)}
variable {b : Option (JobSchedule τ)}

/-- Every step of a run was an answer to its call. -/
theorem executed_of_views (hviews : Throughout (FindsLast (scheduleOf id) b) c.past)
    {step : (jobPlatform τ).Step} (hmem : .ran pid step ∈ c.past) :
    ∃ choice, AppOp.exec step.op choice step.before = some (step.res, step.after) := by
  obtain ⟨newer, older, hsplit⟩ := List.append_of_mem hmem
  rw [hsplit] at hviews
  exact (Throughout.split newer hviews).2

/-- What was looked up is what there was. -/
theorem LooksUp.has {found : Option (JobSchedule τ)} {read : (jobPlatform τ).Step}
    (h : LooksUp tenantId id found read)
    (hexec : ∃ choice, AppOp.exec read.op choice read.before = some (read.res, read.after)) :
    (HasSchedule host tenantId id read.before ↔ ∃ s, found = some s ∧ host.owns s) ∧
      ∀ s, found = some s → read.after.schedules.get id = some s ∧ s.tenantId = tenantId := by
  obtain ⟨call, before, after, rfl⟩ := h
  obtain ⟨choice, hexec⟩ := hexec
  obtain ⟨hfound, hsame⟩ := exec_getSchedule hexec
  refine ⟨⟨?_, ?_⟩, ?_⟩
  · rintro ⟨s, hget, htenant, howned⟩
    refine ⟨s, ?_, howned⟩
    have hget : before.schedules.get id = some s := hget
    simp [hfound, hget, htenant]
  · rintro ⟨s, hs, howned⟩
    obtain ⟨hget, htenant⟩ := Option.filter_eq_some_iff.mp (hfound.symm.trans hs)
    exact ⟨s, hget, by simpa using htenant, howned⟩
  · intro s hs
    obtain ⟨hget, htenant⟩ := Option.filter_eq_some_iff.mp (hfound.symm.trans hs)
    refine ⟨?_, by simpa using htenant⟩
    show after.schedules.get id = some s
    rw [hsame]
    exact hget

theorem LooksUp.reads {found : Option (JobSchedule τ)} {read : (jobPlatform τ).Step}
    (h : LooksUp tenantId id found read) : readsSchedule id read = true := by
  obtain ⟨call, before, after, rfl⟩ := h
  exact beq_self_eq_true id

theorem LooksUp.cancels {found : Option (JobSchedule τ)} {read : (jobPlatform τ).Step}
    (h : LooksUp tenantId id found read) : cancelsSchedule id read = false := by
  obtain ⟨call, before, after, rfl⟩ := h
  rfl

theorem WritesOff.cancels {v : Nat} {write : (jobPlatform τ).Step}
    (h : WritesOff tenantId id v answer write) : cancelsSchedule id write = true := by
  obtain ⟨call, before, after, rfl⟩ := h
  simp [cancelsSchedule, ScheduleUpdate.disables]

/-- The write goes through exactly where the version still stands. -/
theorem WritesOff.answered {v : Nat} {write : (jobPlatform τ).Step} {stored : JobSchedule τ}
    (h : WritesOff tenantId id v answer write)
    (hexec : ∃ choice, AppOp.exec write.op choice write.before = some (write.res, write.after))
    (hget : write.before.schedules.get id = some stored) (htenant : stored.tenantId = tenantId) :
    if stored.version = v then answer ≠ none ∧ IsDisabled id write.after else answer = none := by
  obtain ⟨call, before, after, rfl⟩ := h
  obtain ⟨choice, hexec⟩ := hexec
  exact exec_cancel hexec hget htenant

/-- Every cancellation that resolves looked the schedule up. -/
theorem CancelRun.looksUp {own : List (jobPlatform τ).Step}
    (h : CancelRun host tenantId id own answer) : ∃ step ∈ own, readsSchedule id step = true := by
  cases h with
  | absent read rest found hown hread =>
    rw [hown]
    exact ⟨read, List.mem_cons_self, hread.reads⟩
  | written audits mid checks write read schedule hown hread =>
    rw [hown]
    exact ⟨read, by simp, hread.reads⟩

/-- **One call of a run.** A cancellation does what it promises exactly when nobody moved
the schedule between its two steps. -/
theorem CancelRun.cancels_iff (hworld : c.world.schedules.get id = lastView (scheduleOf id) b c.past)
    (hviews : Throughout (FindsLast (scheduleOf id) b) c.past)
    (hnever : Throughout NeverEnables c.past) (hpast : c.past = later ++ during ++ earlier)
    (h : CancelRun host tenantId id (ownSteps pid during) answer) :
    Cancels host tenantId id (ownSteps pid during) answer c.world ↔
      Always (cancelsAsRead id pid) during := by
  have hexecuted : ∀ step ∈ ownSteps pid during,
      ∃ choice, AppOp.exec step.op choice step.before = some (step.res, step.after) := by
    intro step hmem
    have hran : .ran pid step ∈ c.past := by
      rw [hpast]
      simp [mem_ownSteps.mp hmem]
    exact executed_of_views hviews hran
  cases h with
  | absent read rest found hown hread hfound hrest hanswer =>
    have hreadmem : read ∈ ownSteps pid during := hown ▸ List.mem_cons_self
    refine iff_of_true (fun step hmem hreads hhas => ?_) ?_
    · rw [hown] at hmem
      rcases List.mem_cons.mp hmem with rfl | hmem
      · obtain ⟨s, hs, howned⟩ := (hread.has (hexecuted step hreadmem)).1.mp hhas
        exact absurd howned (hfound s hs)
      · rw [hrest.reads step hmem] at hreads
        cases hreads
    · rw [← List.append_nil during]
      refine (always_cancelsAsRead_append fun step hmem => ?_).mpr trivial
      rw [hown] at hmem
      rcases List.mem_cons.mp hmem with rfl | hmem
      · obtain ⟨_, _, _, rfl⟩ := hread
        rfl
      · exact hrest.cancels step hmem
  | written audits mid checks write read schedule hown hread howned hwrite haudits hmid hchecks =>
    -- where the two steps stand in the run
    have hsuffix : write :: (mid ++ read :: checks) <:+ ownSteps pid during :=
      ⟨audits, by rw [hown]; simp⟩
    obtain ⟨since, d, rfl, hd⟩ := split_ownSteps hsuffix
    obtain ⟨between, before, rfl, hbefore⟩ := 
      split_ownSteps (show read :: checks <:+ ownSteps pid d from ⟨mid, hd.symm⟩)
    have hsince : ownSteps pid since = audits := by
      rw [ownSteps_append, ownSteps_same, hd] at hown
      refine @List.append_cancel_right _ _ (write :: (mid ++ read :: checks)) _ ?_
      rw [hown]
      simp
    have hbetween : ownSteps pid between = mid := by
      rw [ownSteps_append, ownSteps_same, hbefore] at hd
      exact List.append_cancel_right hd
    have hnocancel : ∀ step ∈ ownSteps pid (between ++ .ran pid read :: before),
        cancelsSchedule id step = false := by
      intro step hmem
      rw [hd] at hmem
      rcases List.mem_append.mp hmem with hmem | hmem
      · exact hmid.cancels step hmem
      · rcases List.mem_cons.mp hmem with rfl | hmem
        · exact hread.cancels
        · exact hchecks.cancels step hmem
    -- what the write found
    have hpast' : c.past = (later ++ since) ++ .ran pid write ::
        (between ++ .ran pid read :: (before ++ earlier)) := by
      rw [hpast]
      simp
    rw [hpast'] at hviews
    have hfinds := Throughout.split _ hviews
    have holder := Throughout.older _ hviews
    obtain ⟨hhas, hfound⟩ := hread.has (hexecuted read (by rw [hown]; simp))
    obtain ⟨hget, htenant⟩ := hfound schedule rfl
    obtain ⟨stored, hstored, hsame, hle, hmoved⟩ := schedule_since holder.2 hget
    have hanswer := hwrite.answered hfinds.2 (hfinds.1.trans hstored) (hsame.tenantId.trans htenant)
    -- the condition is about that step alone
    have hcond : Always (cancelsAsRead id pid)
        (since ++ .ran pid write :: (between ++ .ran pid read :: before)) ↔
          ¬ schedule.version < stored.version := by
      have hunread : ∀ step ∈ ownSteps pid between, readsSchedule id step = false := by
        rw [hbetween]
        exact hmid.reads
      have htest : cancelsAsRead id pid (between ++ .ran pid read :: before) (.ran pid write) =
          !between.any (movesSchedule id) := by
        simp [cancelsAsRead, hwrite.cancels, movedSinceRead_append hread.reads hunread]
      rw [always_cancelsAsRead_append (by rw [hsince]; exact haudits.cancels), ← hmoved]
      have hrest : Always (cancelsAsRead id pid) (between ++ .ran pid read :: before) := by
        rw [← List.append_nil (between ++ .ran pid read :: before)]
        exact (always_cancelsAsRead_append hnocancel).mpr trivial
      have hstep : Always (cancelsAsRead id pid)
          (.ran pid write :: (between ++ .ran pid read :: before)) ↔
            cancelsAsRead id pid (between ++ .ran pid read :: before) (.ran pid write) = true :=
        ⟨fun h => h.1, fun h => ⟨h, hrest⟩⟩
      rw [hstep, htest]
      simp
    rw [hcond]
    split at hanswer
    · next hv =>
      obtain ⟨hsome, soon, hsoon, hoff⟩ := hanswer
      refine iff_of_true (fun step _ _ _ => ⟨hsome, ?_⟩) (by omega)
      rw [hpast'] at hworld hnever
      have hnow := isDisabled_since hviews hnever ⟨soon, hsoon, hoff⟩
      obtain ⟨final, hfinal, hdisabled⟩ := hnow
      exact ⟨final, hworld.trans hfinal, hdisabled⟩
    · next hv =>
      refine iff_of_false (fun hcancels => ?_) (by omega)
      have hpromised := hcancels read (by rw [hown]; simp) hread.reads
        (hhas.mpr ⟨schedule, rfl, howned⟩)
      exact hpromised.1 hanswer

/-- A move since the process looked is one over a longer stretch. -/
theorem movedSinceRead_mono {newer older : (jobPlatform τ).History}
    (h : movedSinceRead id pid (newer ++ older) = false) : movedSinceRead id pid newer = false := by
  induction newer with
  | nil => rfl
  | cons e newer ih =>
    cases e with
    | stopped q call => exact ih h
    | ran q step =>
      simp only [List.cons_append, movedSinceRead, Bool.and_eq_false_iff, Bool.or_eq_false_iff] at h ⊢
      exact h.imp_right fun hrest => ⟨hrest.1, ih hrest.2⟩

/-- What a process keeps to over a stretch it keeps to over a part of it. -/
theorem always_cancelsAsRead_part {newer mid older : (jobPlatform τ).History}
    (h : Always (cancelsAsRead id pid) (newer ++ mid ++ older)) :
    Always (cancelsAsRead id pid) mid := by
  have hpart : Always (cancelsAsRead id pid) (mid ++ older) := by
    rw [List.append_assoc] at h
    exact Throughout.older newer h
  refine throughout_of_split fun late e early heq => ?_
  rw [heq, List.append_assoc, List.cons_append] at hpart
  have hevent := Throughout.split late hpart
  cases e with
  | stopped q call => rfl
  | ran q step =>
    simp only [cancelsAsRead, Bool.or_eq_true, Bool.not_eq_true'] at hevent ⊢
    exact hevent.imp_right movedSinceRead_mono

end calls

/-- **Cancelling a schedule.** In every run of the job service, every call of
`disableSchedule` that resolves, whichever process made it, disables the schedule it found
and does not answer `null`, exactly when nobody moved the schedule between the call's
lookup and its write. So every schedule that an import replaces is disabled, if each is
left alone in that time. -/
theorem disableSchedule_disables_iff {w : World τ} {as : List (jobPlatform τ).Action}
    {c : (jobPlatform τ).Config} (hrun : (jobPlatform τ).run (Config.init w) as = some c)
    {later during earlier : (jobPlatform τ).History} (hpast : c.past = later ++ during ++ earlier)
    (pid : Nat) (host : JobHost) (tenantId : String) (caller : PrincipalInput) :
    (∀ id answer, Task.Ran (P := jobPlatform τ) (host.service.disableSchedule tenantId id caller)
      (ownSteps pid during) (.ok answer) →
      (Cancels host tenantId id (ownSteps pid during) answer c.world ↔
        Always (cancelsAsRead id pid) during)) ∧
    ∀ replaced : List (JobSchedule τ), Task.Ran (P := jobPlatform τ)
      (Task.forEach (fun s => do
        let _ ← host.schedules.disable tenantId s.id caller
        pure ()) replaced) (ownSteps pid during) (.ok ()) →
      ∀ s ∈ replaced, Always (cancelsAsRead s.id pid) during →
        (∀ step ∈ ownSteps pid during, readsSchedule s.id step = true →
          HasSchedule host tenantId s.id step.before) → IsDisabled s.id c.world := by
  obtain ⟨-, ⟨hnever, -⟩, -⟩ := Discipline.sound recurringProtocol_obeyed
    neverEnables_inductive.toInductive ⟨trivial, fun q phq hq => by cases hq⟩ hrun
    (throughout_of_split fun _ _ _ _ => trivial)
  have hviews : ∀ id, c.world.schedules.get id =
      lastView (scheduleOf id) (w.schedules.get id) c.past ∧
      Throughout (FindsLast (scheduleOf id) (w.schedules.get id)) c.past := by
    intro id
    refine views (P := jobPlatform τ) (f := scheduleOf id) (fun move w w' henv => ?_) hrun
    simp only [scheduleOf, jobEnv_schedules henv]
  have hcall : ∀ {later during earlier : (jobPlatform τ).History},
      c.past = later ++ during ++ earlier → ∀ id answer, Task.Ran (P := jobPlatform τ)
        (host.service.disableSchedule tenantId id caller) (ownSteps pid during) (.ok answer) →
      (Cancels host tenantId id (ownSteps pid during) answer c.world ↔
        Always (cancelsAsRead id pid) during) := by
    intro later during earlier hpast id answer hran
    obtain ⟨hworld, hfinds⟩ := hviews id
    exact (ran_disableSchedule hran).cancels_iff hworld hfinds hnever hpast
  refine ⟨hcall hpast, fun replaced hran s hmem hcond hhas => ?_⟩
  -- the stretch in which this one is cancelled
  obtain ⟨since, mid, before, hown, hbody⟩ := Task.Ran.forEach replaced hran s hmem
  obtain ⟨answer, rest, steps, hsteps, hdisable, hdone⟩ := Task.Ran.bind (P := jobPlatform τ) hbody
  obtain ⟨rfl, -⟩ := hdone
  rw [List.nil_append] at hsteps
  subst hsteps
  rw [List.append_assoc] at hown
  obtain ⟨newer, d, rfl, -, hd⟩ := split_between hown
  obtain ⟨part, older, rfl, rfl, -⟩ := split_between hd
  have hpast' : c.past = (later ++ newer) ++ part ++ (older ++ earlier) := by
    rw [hpast]
    simp
  rw [← List.append_assoc] at hcond
  have hcancels := (hcall hpast' s.id answer hdisable).mpr (always_cancelsAsRead_part hcond)
  obtain ⟨step, hstep, hreads⟩ := (ran_disableSchedule hdisable).looksUp
  have hin : step ∈ ownSteps pid (newer ++ (part ++ older)) := by
    rw [ownSteps_append, ownSteps_append]
    exact List.mem_append_right _ (List.mem_append_left _ hstep)
  exact (hcancels step hstep hreads (hhas step hin hreads)).2

/-! ### A schedule that is cancelled, and one that is not -/

/-- A process that has resolved ran its task; what it resolved to was dropped. -/
theorem ran_discard {α : Type} {t : Svc τ α} {own : List (jobPlatform τ).Step}
    (h : Task.Ran (P := jobPlatform τ) (discard t) own (.ok ())) :
    ∃ a, Task.Ran (P := jobPlatform τ) t own (.ok a) := by
  obtain ⟨a, later, steps, rfl, hran, hdone⟩ := Task.Ran.bind (P := jobPlatform τ) h
  obtain ⟨rfl, -⟩ := hdone
  exact ⟨a, hran⟩

/-- A schedule that runs every minute is declared. -/
def declares : List (jobPlatform Nat).Action :=
  .spawn ⟨reportHost, .scheduleRecurring { type := "report", interval := "1m" } (.of ada)⟩ ::
    answering 0 ([.proceed, .proceed, .draw "q1", .proceed, .proceed, .proceed, .proceed,
      allows "d1" "schedules.create" "appport://app/tenants/acme/schedule/*", .proceed, .proceed,
      .proceed, .proceed, .proceed, .draw "row1", .proceed, .draw "s", .proceed, .proceed,
      .draw "a0", .proceed, .proceed, .proceed, .proceed, .proceed])

/-- A process works through the due schedules, up to its write of the schedule; `others`
is what happens before that. -/
def advances1m (others : List (jobPlatform Nat).Action) : List (jobPlatform Nat).Action :=
  .env (.tick 60000) :: .spawn ⟨reportHost, .processRecurringSchedules "acme"⟩ ::
    answering 1 [.proceed, .proceed] ++ others ++
    answering 1 [.draw "j1", .proceed, .proceed, .draw "a1", .proceed]

/-- The call that cancels the schedule, up to its write. -/
def looksUp : List (jobPlatform Nat).Action :=
  .spawn ⟨reportHost, .disableSchedule "acme" "s" (.of ada)⟩ ::
    answering 2 [.proceed, .proceed, .draw "q2", .proceed, .proceed, .proceed, .proceed,
      allows "d2" "schedules.cancel" "appport://app/tenants/acme/schedule/s", .proceed, .proceed,
      .proceed, .proceed, .proceed, .draw "row2", .proceed]

/-- The schedule was moved on before it is cancelled. -/
def cancelled : List (jobPlatform Nat).Action :=
  declares ++ advances1m [] ++ looksUp ++
    answering 2 [.proceed, .proceed, .draw "a2", .proceed, .proceed, .proceed, .proceed, .proceed]

/-- It is moved on while it is cancelled. -/
def lostCancellation : List (jobPlatform Nat).Action :=
  declares ++ advances1m looksUp ++ answering 2 [.proceed, .proceed, .proceed, .proceed, .proceed]

/-- The process has resolved. -/
def hasResolved (pid : Nat) (c : (jobPlatform Nat).Config) : Bool :=
  match c.proc pid with
  | some ⟨_, .settled (.ok _)⟩ => true
  | _ => false

/-- A process that has resolved ran its entry point. -/
theorem ran_of_hasResolved {w : World Nat} {as : List (jobPlatform Nat).Action}
    {c : (jobPlatform Nat).Config} (hrun : (jobPlatform Nat).run (Config.init w) as = some c)
    {pid : Nat} (h : hasResolved pid c = true) {call : JobCall Nat}
    (hcall : (started as)[pid]? = some call) :
    Task.Ran (P := jobPlatform Nat) (jobBody call) (ownSteps pid c.past) (.ok ()) := by
  unfold hasResolved at h
  split at h
  · next call' _ hproc =>
    have hnumber := (numbered_of_run (Numbered.init w) as hrun).proc pid _ hproc
    rw [List.nil_append, hcall] at hnumber
    obtain rfl := Option.some.inj hnumber
    exact ran_of_run hrun hproc
  · cases h

/-- The step looks up a schedule of the tenant and the application. -/
def findsOwned (step : (jobPlatform Nat).Step) : Bool :=
  readsSchedule "s" step && (step.before.schedules.get "s").any fun schedule =>
    schedule.tenantId == "acme" && schedule.applicationId == some "app"

theorem hasSchedule_of_findsOwned {step : (jobPlatform Nat).Step} (h : findsOwned step = true) :
    readsSchedule "s" step = true ∧ HasSchedule reportHost "acme" "s" step.before := by
  simp only [findsOwned, Bool.and_eq_true, Option.any_eq_true, beq_iff_eq] at h
  obtain ⟨hreads, schedule, hget, htenant, happ⟩ := h
  refine ⟨hreads, schedule, hget, htenant, fun gateway hgateway => ?_⟩
  obtain rfl := Option.some.inj hgateway
  exact happ

theorem disableSchedule_disables_iff_cancelled :
    ∃ c, (jobPlatform Nat).run (Config.init { clock := 0, verified := [ada], nextRef := 1 })
        cancelled = some c ∧
      ∃ answer, Task.Ran (P := jobPlatform Nat)
          (reportHost.service.disableSchedule "acme" "s" (.of ada)) (ownSteps 2 c.past) (.ok answer) ∧
        answer ≠ none ∧ IsDisabled "s" c.world := by
  obtain ⟨c, hrun, hc⟩ : ∃ c, (jobPlatform Nat).run
      (Config.init { clock := 0, verified := [ada], nextRef := 1 }) cancelled = some c ∧
      (hasResolved 2 c && (ownSteps 2 c.past).any findsOwned &&
        decide (Always (cancelsAsRead "s" 2) c.past)) = true := exists_of_run (by decide +kernel)
  simp only [Bool.and_eq_true, decide_eq_true_eq, List.any_eq_true] at hc
  obtain ⟨⟨hresolved, step, hmem, hfinds⟩, hcond⟩ := hc
  obtain ⟨answer, hran⟩ := ran_discard (ran_of_hasResolved hrun hresolved rfl)
  have hpast : c.past = [] ++ c.past ++ [] := by simp
  have hcancels := ((disableSchedule_disables_iff hrun hpast 2 reportHost "acme" (.of ada)).1
    "s" answer hran).mpr hcond
  obtain ⟨hreads, hhas⟩ := hasSchedule_of_findsOwned hfinds
  obtain ⟨hanswer, hoff⟩ := hcancels step hmem hreads hhas
  exact ⟨c, hrun, answer, hran, hanswer, hoff⟩

/-- The step is a write of a schedule that was answered with a record. -/
def writesSome : (jobPlatform Nat).Step → Bool
  | ⟨_, .schedules (.updateSchedule ..), .ok (some _), _, _⟩ => true
  | _ => false

/-- The call resolves to `null`; the schedule it found stands, and is enabled. -/
theorem lostCancellation_keeps_running :
    ∃ c, (jobPlatform Nat).run (Config.init { clock := 0, verified := [ada], nextRef := 1 })
        lostCancellation = some c ∧
      Task.Ran (P := jobPlatform Nat) (reportHost.service.disableSchedule "acme" "s" (.of ada))
        (ownSteps 2 c.past) (.ok none) ∧
      (∃ schedule, c.world.schedules.get "s" = some schedule ∧ schedule.enabled = true) ∧
      ¬ Cancels reportHost "acme" "s" (ownSteps 2 c.past) none c.world := by
  obtain ⟨c, hrun, hc⟩ : ∃ c, (jobPlatform Nat).run
      (Config.init { clock := 0, verified := [ada], nextRef := 1 }) lostCancellation = some c ∧
      (hasResolved 2 c && (ownSteps 2 c.past).any findsOwned &&
        (ownSteps 2 c.past).all (fun step => !writesSome step) &&
        (c.world.schedules.get "s").any (fun schedule => schedule.enabled)) = true :=
    exists_of_run (by decide +kernel)
  simp only [Bool.and_eq_true, List.any_eq_true, List.all_eq_true, Option.any_eq_true,
    Bool.not_eq_true'] at hc
  obtain ⟨⟨⟨hresolved, step, hmem, hfinds⟩, hnone⟩, schedule, hget, henabled⟩ := hc
  obtain ⟨answer, hran⟩ := ran_discard (ran_of_hasResolved hrun hresolved rfl)
  have hanswer : answer = none := by
    cases ran_disableSchedule hran with
    | absent _ _ _ _ _ _ _ hanswer => exact hanswer
    | written later mid earlier write read schedule hown _ _ hwrite =>
      have hwritten := hnone write (by rw [hown]; simp)
      obtain ⟨call, before, after, rfl⟩ := hwrite
      cases answer with
      | none => rfl
      | some s => cases hwritten
  subst hanswer
  obtain ⟨hreads, hhas⟩ := hasSchedule_of_findsOwned hfinds
  exact ⟨c, hrun, hran, ⟨schedule, hget, henabled⟩, fun hcancels =>
    (hcancels step hmem hreads hhas).1 rfl⟩

end AppPort
