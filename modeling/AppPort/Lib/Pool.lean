import AppPort.Lib.Task

/-!
# Pools — interleaved calls on one shared world

A `Platform` says what the calls of a signature do to a shared world, which
entry points there are, and how the environment moves on its own. A run of the
pool is a list of `Action`s: start an entry point, answer the call one process
awaits, stop a process where it stands, or let the environment move. Each call is
atomic and every order of calls is a run, so a theorem about all action lists is
a theorem about all interleavings.

What the world does not determine (whether a remote service answers, which fresh
name is drawn) is the `Choice` an action carries; `exec` refuses the choices that
do not fit the call. A process that is never stepped again is a process that
crashed or hangs, so every prefix of a run covers a crash; `stop` says it
explicitly, for the properties that tell a live process from a dead one.

The configuration keeps its history: the calls answered and the processes stopped
so far, newest first, each with the world before and after. Properties of runs
are properties of this list.
-/

namespace Effects

/-- A shared world and the entry points that work on it. -/
structure Platform where
  /-- The calls. -/
  sig : Sig
  /-- The shared state. -/
  World : Type
  /-- What a call's answer depends on besides the world. -/
  Choice : Type
  /-- The atomic effect of one call. -/
  exec : (op : sig.Op) → Choice → World → Option (Except sig.Err (sig.Out op) × World)
  /-- The environment's own moves. -/
  Env : Type
  /-- The effect of an environment move. -/
  env : Env → World → Option World
  /-- The entry points, with their arguments. -/
  Call : Type
  /-- What an entry point resolves to. -/
  Ret : Type
  /-- The task an entry point starts. -/
  body : Call → Task sig Ret

namespace Platform

/-- One answered call: who made it on behalf of which entry point, how it was
answered, and the world on either side. -/
structure Step (P : Platform) where
  call : P.Call
  op : P.sig.Op
  res : Except P.sig.Err (P.sig.Out op)
  before : P.World
  after : P.World

/-- What a run leaves behind. -/
inductive Event (P : Platform) where
  /-- Process `pid` had the call it awaited answered. -/
  | ran (pid : Nat) (step : P.Step)
  /-- Process `pid` stopped where it stood. -/
  | stopped (pid : Nat) (call : P.Call)

/-- The past of a run, newest event first. -/
abbrev History (P : Platform) := List P.Event

/-- A process: its entry point and what is left of its task. -/
structure Process (P : Platform) where
  call : P.Call
  rest : Task P.sig P.Ret

/-- A pool: its processes (stopped ones as `none`), the world and the past. -/
structure Config (P : Platform) where
  procs : List (Option P.Process)
  world : P.World
  past : P.History

/-- The pool before anything was started. -/
def Config.init {P : Platform} (w : P.World) : P.Config := ⟨[], w, []⟩

/-- What a scheduler may do next. -/
inductive Action (P : Platform) where
  | spawn (call : P.Call)
  | step (pid : Nat) (choice : P.Choice)
  | stop (pid : Nat)
  | env (move : P.Env)

variable {P : Platform}

/-- The process `pid`, when it exists and has not been stopped. -/
def Config.proc (c : P.Config) (pid : Nat) : Option P.Process :=
  (c.procs[pid]?).join

/-- One action of the scheduler; `none` when it is not possible here. -/
def act (c : P.Config) : P.Action → Option P.Config
  | .spawn call => some { c with procs := c.procs ++ [some ⟨call, P.body call⟩] }
  | .step pid choice =>
    match c.proc pid with
    | some ⟨call, .await op k⟩ =>
      match P.exec op choice c.world with
      | some (res, world) =>
        some { procs := c.procs.set pid (some ⟨call, k res⟩)
               world := world
               past := .ran pid ⟨call, op, res, c.world, world⟩ :: c.past }
      | none => none
    | _ => none
  | .stop pid =>
    match c.proc pid with
    | some p => some { c with procs := c.procs.set pid none, past := .stopped pid p.call :: c.past }
    | none => none
  | .env move =>
    match P.env move c.world with
    | some world => some { c with world := world }
    | none => none

/-- A schedule, from first action to last. -/
def run (c : P.Config) : List P.Action → Option P.Config
  | [] => some c
  | a :: rest =>
    match P.act c a with
    | some c' => run c' rest
    | none => none

/-- Every event of the past satisfied `cond` when it happened, given the events
before it. -/
def Throughout (cond : P.History → P.Event → Prop) : P.History → Prop
  | [] => True
  | e :: past => cond past e ∧ Throughout cond past

theorem Throughout.mono {cond cond' : P.History → P.Event → Prop}
    (h : ∀ past e, cond past e → cond' past e) :
    {past : P.History} → Throughout cond past → Throughout cond' past
  | [], _ => trivial
  | e :: past, hp => ⟨h past e hp.1, Throughout.mono h hp.2⟩

instance decidableThroughout (cond : P.History → P.Event → Prop)
    [∀ past e, Decidable (cond past e)] : (past : P.History) → Decidable (Throughout cond past)
  | [] => inferInstanceAs (Decidable True)
  | _ :: past =>
    have := decidableThroughout cond past
    inferInstanceAs (Decidable (_ ∧ _))

/-- `Throughout` of a test. -/
abbrev Always (test : P.History → P.Event → Bool) (past : P.History) : Prop :=
  Throughout (fun older e => test older e = true) past

/-- What `Throughout` says of one event of the past. -/
theorem Throughout.split {cond : P.History → P.Event → Prop} :
    (newer : P.History) → {e : P.Event} → {older : P.History} →
    Throughout cond (newer ++ e :: older) → cond older e
  | [], _, _, h => h.1
  | _ :: newer, _, _, h => Throughout.split newer h.2

/-- `Throughout` from its splittings. -/
theorem throughout_of_split {cond : P.History → P.Event → Prop} :
    {past : P.History} →
    (∀ newer e older, past = newer ++ e :: older → cond older e) → Throughout cond past
  | [], _ => trivial
  | e :: past, h => ⟨h [] e past rfl, throughout_of_split fun newer e' older heq =>
      h (e :: newer) e' older (by rw [heq, List.cons_append])⟩

/-- Nothing is asked of the events. -/
theorem throughout_true (past : P.History) : Throughout (fun _ _ => True) past :=
  throughout_of_split fun _ _ _ _ => trivial

/-! ## Runs as inductions

A run is a chain of actions, and what an action may do to a configuration is one
of four things. `Action.cases` says so once. -/

theorem run_append (c : P.Config) (as bs : List P.Action) :
    P.run c (as ++ bs) = (P.run c as).bind (fun c' => P.run c' bs) := by
  induction as generalizing c with
  | nil => rfl
  | cons a as ih =>
    simp only [List.cons_append, run]
    cases P.act c a with
    | none => rfl
    | some c' => exact ih c'

/-- **The induction rule of runs.** What holds at the start and is preserved by
every action holds at the end. -/
theorem run_induction {c : P.Config} (Holds : P.Config → Prop) (hinit : Holds c)
    (hact : ∀ c a c', Holds c → P.act c a = some c' → Holds c') :
    (as : List P.Action) → {c' : P.Config} → P.run c as = some c' → Holds c'
  | [], c', h => by
    simp only [run, Option.some.injEq] at h
    exact h ▸ hinit
  | a :: as, c', h => by
    simp only [run] at h
    cases hstep : P.act c a with
    | none => rw [hstep] at h; cases h
    | some c₁ =>
      rw [hstep] at h
      exact run_induction Holds (hact c a c₁ hinit hstep) hact as h

/-- A run that can be evaluated: it goes through and its end satisfies `p`. -/
theorem exists_of_run {c : P.Config} {as : List P.Action} {p : P.Config → Bool}
    (h : (P.run c as).any p = true) : ∃ c', P.run c as = some c' ∧ p c' = true := by
  cases hrun : P.run c as with
  | none =>
    rw [hrun] at h
    cases h
  | some c' =>
    rw [hrun] at h
    exact ⟨c', rfl, h⟩

/-- A step of the pool answers the call its process awaits. -/
theorem act_step {c c' : P.Config} {pid : Nat} {choice : P.Choice}
    (h : P.act c (.step pid choice) = some c') :
    ∃ call op k res world, c.proc pid = some ⟨call, .await op k⟩ ∧
      P.exec op choice c.world = some (res, world) ∧
      c' = { procs := c.procs.set pid (some ⟨call, k res⟩)
             world := world
             past := .ran pid ⟨call, op, res, c.world, world⟩ :: c.past } := by
  simp only [act] at h
  split at h
  · next call op k hproc =>
    split at h
    · next res world hexec =>
      refine ⟨call, op, k, res, world, hproc, hexec, ?_⟩
      exact (Option.some.inj h).symm
    · cases h
  · cases h

theorem act_stop {c c' : P.Config} {pid : Nat} (h : P.act c (.stop pid) = some c') :
    ∃ p, c.proc pid = some p ∧
      c' = { c with procs := c.procs.set pid none, past := .stopped pid p.call :: c.past } := by
  simp only [act] at h
  split at h
  · next p hproc => exact ⟨p, hproc, (Option.some.inj h).symm⟩
  · cases h

theorem act_env {c c' : P.Config} {move : P.Env} (h : P.act c (.env move) = some c') :
    ∃ world, P.env move c.world = some world ∧ c' = { c with world := world } := by
  simp only [act] at h
  split at h
  · next world henv => exact ⟨world, henv, (Option.some.inj h).symm⟩
  · cases h

/-! ## The processes of a pool under an action -/

theorem proc_lt {c : P.Config} {pid : Nat} {p : P.Process} (h : c.proc pid = some p) :
    pid < c.procs.length := by
  unfold Config.proc at h
  by_contra hge
  rw [List.getElem?_eq_none (Nat.le_of_not_lt hge)] at h
  cases h

theorem proc_set (c : P.Config) {pid : Nat} (hlt : pid < c.procs.length)
    (p : Option P.Process) (w : P.World) (past : P.History) (q : Nat) :
    (Config.mk (c.procs.set pid p) w past).proc q = if q = pid then p else c.proc q := by
  unfold Config.proc
  by_cases h : q = pid
  · subst h
    simp [hlt]
  · simp [h, List.getElem?_set_ne (Ne.symm h)]

theorem proc_spawn (c : P.Config) (p : P.Process) (w : P.World) (past : P.History) (q : Nat) :
    (Config.mk (c.procs ++ [some p]) w past).proc q =
      if q = c.procs.length then some p else c.proc q := by
  unfold Config.proc
  rcases lt_trichotomy q c.procs.length with h | h | h
  · simp [List.getElem?_append_left h, Nat.ne_of_lt h]
  · subst h
    simp
  · have hlen : (c.procs ++ [some p]).length ≤ q := by
      rw [List.length_append, List.length_singleton]
      exact h
    simp [List.getElem?_eq_none hlen, List.getElem?_eq_none h.le, Nat.ne_of_gt h]

/-! ## Which process is which

Processes are numbered in the order they are started in. -/

/-- The entry points a schedule starts, in order. -/
def started : List P.Action → List P.Call
  | [] => []
  | .spawn call :: rest => call :: started rest
  | .step _ _ :: rest | .stop _ :: rest | .env _ :: rest => started rest

/-- The processes of a configuration and the events of its past are those of `calls`. -/
structure Numbered (calls : List P.Call) (c : P.Config) : Prop where
  length : c.procs.length = calls.length
  proc : ∀ pid p, c.proc pid = some p → calls[pid]? = some p.call
  ran : ∀ pid step, .ran pid step ∈ c.past → calls[pid]? = some step.call

theorem Numbered.init (w : P.World) : Numbered [] (Config.init w : P.Config) where
  length := rfl
  proc pid _ h := absurd (proc_lt h) (Nat.not_lt_zero pid)
  ran _ _ h := (List.not_mem_nil h).elim

/-- Starting an entry point gives it the next number. -/
theorem Numbered.spawn {calls : List P.Call} {c : P.Config} (h : Numbered calls c)
    (call : P.Call) :
    Numbered (calls ++ [call]) { c with procs := c.procs ++ [some ⟨call, P.body call⟩] } where
  length := by simp [h.length]
  proc pid p hp := by
    rw [proc_spawn c _ c.world c.past] at hp
    by_cases hpid : pid = c.procs.length
    · rw [if_pos hpid] at hp
      obtain rfl := Option.some.inj hp
      rw [hpid, h.length]
      simp
    · rw [if_neg hpid] at hp
      have hlt : pid < calls.length := h.length ▸ proc_lt hp
      rw [List.getElem?_append_left hlt]
      exact h.proc pid p hp
  ran pid step hm := by
    have hcall := h.ran pid step hm
    have hlt : pid < calls.length := (List.getElem?_eq_some_iff.mp hcall).1
    rw [List.getElem?_append_left hlt]
    exact hcall

theorem Numbered.step {calls : List P.Call} {c c' : P.Config} {pid : Nat} {choice : P.Choice}
    (h : Numbered calls c) (hact : P.act c (.step pid choice) = some c') : Numbered calls c' := by
  obtain ⟨call, op, k, res, world, hproc, -, rfl⟩ := act_step hact
  refine ⟨by simp [h.length], fun q p hq => ?_, fun q step hm => ?_⟩
  · rw [proc_set c (proc_lt hproc)] at hq
    by_cases hqp : q = pid
    · rw [if_pos hqp] at hq
      obtain rfl := Option.some.inj hq
      rw [hqp]
      exact h.proc pid ⟨call, .await op k⟩ hproc
    · rw [if_neg hqp] at hq
      exact h.proc q p hq
  · rcases List.mem_cons.mp hm with heq | hm
    · cases heq
      exact h.proc pid _ hproc
    · exact h.ran q step hm

theorem Numbered.stop {calls : List P.Call} {c c' : P.Config} {pid : Nat}
    (h : Numbered calls c) (hact : P.act c (.stop pid) = some c') : Numbered calls c' := by
  obtain ⟨p, hproc, rfl⟩ := act_stop hact
  refine ⟨by simp [h.length], fun q p' hq => ?_, fun q step hm => ?_⟩
  · rw [proc_set c (proc_lt hproc)] at hq
    by_cases hqp : q = pid
    · rw [if_pos hqp] at hq
      cases hq
    · rw [if_neg hqp] at hq
      exact h.proc q p' hq
  · have hm' : Event.ran q step ∈ c.past := by simpa using hm
    exact h.ran q step hm'

/-- Process `pid` of a run is the entry point started as number `pid`. -/
theorem numbered_of_run {calls : List P.Call} {c : P.Config} (h : Numbered calls c) :
    (as : List P.Action) → {c' : P.Config} → P.run c as = some c' →
    Numbered (calls ++ started as) c'
  | [], c', hrun => by
    obtain rfl := Option.some.inj hrun
    simpa [started] using h
  | a :: as, c', hrun => by
    simp only [run] at hrun
    cases hact : P.act c a with
    | none =>
      rw [hact] at hrun
      cases hrun
    | some c₁ =>
      rw [hact] at hrun
      cases a with
      | spawn call =>
        obtain rfl := (Option.some.inj hact).symm
        have hrest := numbered_of_run (h.spawn call) as hrun
        simpa [started] using hrest
      | step pid choice => exact numbered_of_run (h.step hact) as hrun
      | stop pid => exact numbered_of_run (h.stop hact) as hrun
      | env move =>
        obtain ⟨world, -, rfl⟩ := act_env hact
        have hsame : Numbered calls { c with world := world } := ⟨h.length, h.proc, h.ran⟩
        exact numbered_of_run hsame as hrun

/-- A process that was stopped is in its pool, and gone. -/
theorem gone_of_stopped {w : P.World} {as : List P.Action} {c : P.Config}
    (hrun : P.run (Config.init w) as = some c) {pid : Nat} {call : P.Call}
    (hmem : .stopped pid call ∈ c.past) : pid < c.procs.length ∧ c.proc pid = none := by
  refine run_induction (P := P) (fun c => ∀ pid call, .stopped pid call ∈ c.past →
    pid < c.procs.length ∧ c.proc pid = none) (fun _ _ h => (List.not_mem_nil h).elim) ?_ as hrun
    pid call hmem
  intro c a c' hgone hact pid call hmem
  cases a with
  | spawn started =>
    obtain rfl := (Option.some.inj hact).symm
    obtain ⟨hlt, hnone⟩ := hgone pid call hmem
    refine ⟨Nat.lt_of_lt_of_le hlt (by simp), ?_⟩
    rw [proc_spawn c _ c.world c.past, if_neg (Nat.ne_of_lt hlt)]
    exact hnone
  | step q choice =>
    obtain ⟨_, op, k, res, world, hproc, -, rfl⟩ := act_step hact
    have hold : Event.stopped pid call ∈ c.past := by simpa using hmem
    obtain ⟨hlt, hnone⟩ := hgone pid call hold
    have hne : pid ≠ q := by
      rintro rfl
      rw [hnone] at hproc
      cases hproc
    refine ⟨by simpa using hlt, ?_⟩
    rw [proc_set c (proc_lt hproc), if_neg hne]
    exact hnone
  | stop q =>
    obtain ⟨p, hproc, rfl⟩ := act_stop hact
    by_cases hq : pid = q
    · subst hq
      refine ⟨by simpa using proc_lt hproc, ?_⟩
      rw [proc_set c (proc_lt hproc), if_pos rfl]
    · rcases List.mem_cons.mp hmem with heq | hold
      · cases heq
        exact absurd rfl hq
      · obtain ⟨hlt, hnone⟩ := hgone pid call hold
        refine ⟨by simpa using hlt, ?_⟩
        rw [proc_set c (proc_lt hproc), if_neg hq]
        exact hnone
  | env move =>
    obtain ⟨world, -, rfl⟩ := act_env hact
    exact hgone pid call hmem

/-- All calls have returned. -/
def allReturned (c : P.Config) : Bool :=
  c.procs.all fun p => match p with
    | some ⟨_, .settled _⟩ => true
    | _ => false

theorem proc_of_allReturned {c : P.Config} (h : allReturned c = true) {pid : Nat}
    (hlt : pid < c.procs.length) : ∃ call r, c.proc pid = some ⟨call, .settled r⟩ := by
  have hdone := List.all_eq_true.mp h _ (List.getElem_mem hlt)
  unfold Config.proc
  rw [List.getElem?_eq_getElem hlt]
  split at hdone
  · next call r hp => exact ⟨call, r, by rw [hp]; rfl⟩
  · cases hdone

/-- When all calls have returned, no process was stopped. -/
theorem never_stopped {w : P.World} {as : List P.Action} {c : P.Config}
    (hrun : P.run (Config.init w) as = some c) (h : allReturned c = true) (pid : Nat) (call : P.Call) :
    .stopped pid call ∉ c.past := by
  intro hmem
  obtain ⟨hlt, hnone⟩ := gone_of_stopped hrun hmem
  obtain ⟨call', r, hproc⟩ := proc_of_allReturned h hlt
  rw [hnone] at hproc
  cases hproc

end Platform

end Effects
