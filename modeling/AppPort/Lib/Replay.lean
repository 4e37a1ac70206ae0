import AppPort.Lib.Trace

/-!
# Replay — a task against the steps its process took

In a run a process is a residual task and its past a list of answered calls. `Ran` puts
the two together again: answered so, the task settles with this. What a process was
answered can then be read along its text, and the answer of a call that one task makes
of another is at hand, which the result of the process may have dropped.

The rules are inversions: a sequence ran as its first half and then its second. What an
event of the past left of the world is what the next one finds (`views`), as far as the
environment leaves it alone.
-/

namespace Effects

open Platform

variable {P : Platform} {α β : Type}

namespace Task

/-- Answered by these steps, newest first, the task settles with `r`. -/
def Ran : Task P.sig α → List P.Step → Except P.sig.Err α → Prop
  | .settled q, own, r => own = [] ∧ r = q
  | .await op k, own, r => ∃ call res before after later,
      own = later ++ [⟨call, op, res, before, after⟩] ∧ Ran (k res) later r

@[simp] theorem ran_settled {q r : Except P.sig.Err α} {own : List P.Step} :
    (Task.settled q : Task P.sig α).Ran own r ↔ own = [] ∧ r = q := Iff.rfl

/-- One call is one step. -/
theorem Ran.perform {op : P.sig.Op} {own : List P.Step} {r : Except P.sig.Err (P.sig.Out op)}
    (h : (Task.perform op).Ran own r) :
    ∃ call before after, own = [⟨call, op, r, before, after⟩] := by
  obtain ⟨call, res, before, after, later, rfl, rfl, rfl⟩ := h
  exact ⟨call, before, after, rfl⟩

/-- **The sequencing rule.** -/
theorem Ran.settleWith {r : Except P.sig.Err β} {f : Except P.sig.Err α → Task P.sig β} :
    {t : Task P.sig α} → {own : List P.Step} → (t.settleWith f).Ran own r →
    ∃ q later earlier, own = later ++ earlier ∧ t.Ran earlier q ∧ (f q).Ran later r
  | .settled q, own, h => ⟨q, own, [], (List.append_nil own).symm, ⟨rfl, rfl⟩, h⟩
  | .await op k, own, h => by
    obtain ⟨call, res, before, after, rest, rfl, hrest⟩ := h
    obtain ⟨q, later, earlier, rfl, ht, hf⟩ := Ran.settleWith hrest
    exact ⟨q, later, earlier ++ [⟨call, op, res, before, after⟩], List.append_assoc ..,
      ⟨call, res, before, after, earlier, rfl, ht⟩, hf⟩

/-- A sequence that resolves ran as its first half, and then from what that resolved to. -/
theorem Ran.bind {b : β} {t : Task P.sig α} {f : α → Task P.sig β} {own : List P.Step}
    (h : (t.bind f).Ran own (.ok b)) :
    ∃ a later earlier, own = later ++ earlier ∧ t.Ran earlier (.ok a) ∧ (f a).Ran later (.ok b) := by
  obtain ⟨q, later, earlier, rfl, ht, hf⟩ := Ran.settleWith h
  cases q with
  | ok a => exact ⟨a, later, earlier, rfl, ht, hf⟩
  | error e => cases hf.2

/-- A check that passed took no step. -/
theorem Ran.ofExcept_bind {b : β} {q : Except P.sig.Err α} {f : α → Task P.sig β}
    {own : List P.Step} (h : ((ofExcept q).bind f).Ran own (.ok b)) :
    ∃ a, q = .ok a ∧ (f a).Ran own (.ok b) := by
  cases q with
  | ok a => exact ⟨a, rfl, h⟩
  | error e => cases h.2

/-- Where a task that resolves was caught, its handler resolved. -/
theorem Ran.tryCatch {a : α} {t : Task P.sig α} {g : P.sig.Err → Task P.sig α} {own : List P.Step}
    (h : (t.tryCatch g).Ran own (.ok a)) :
    t.Ran own (.ok a) ∨ ∃ e later earlier, own = later ++ earlier ∧ t.Ran earlier (.error e) ∧
      (g e).Ran later (.ok a) := by
  obtain ⟨q, later, earlier, rfl, ht, hg⟩ := Ran.settleWith h
  cases q with
  | ok b =>
    obtain ⟨rfl, hb⟩ := hg
    cases hb
    exact .inl ht
  | error e => exact .inr ⟨e, later, earlier, rfl, ht, hg⟩

/-- A task makes only its own calls. -/
theorem Ran.uses {calls : Set P.sig.Op} {r : Except P.sig.Err α} :
    {t : Task P.sig α} → {own : List P.Step} → t.Ran own r → t.Uses calls →
    ∀ step ∈ own, step.op ∈ calls
  | .settled _, own, h, _, step, hmem => by
    rw [h.1] at hmem
    exact absurd hmem List.not_mem_nil
  | .await op k, own, h, hu, step, hmem => by
    obtain ⟨call, res, before, after, later, rfl, hrest⟩ := h
    rcases List.mem_append.mp hmem with hlater | hfirst
    · exact hrest.uses (hu.2 res) step hlater
    · obtain rfl := List.mem_singleton.mp hfirst
      exact hu.1

/-- A loop that resolves ran its body for each element. -/
theorem Ran.forEach {f : β → Task P.sig Unit} {u : Unit} :
    (xs : List β) → {own : List P.Step} → (Task.forEach f xs).Ran own (.ok u) → ∀ x ∈ xs,
    ∃ later mid earlier, own = later ++ mid ++ earlier ∧ (f x).Ran mid (.ok ())
  | [], _, _, x, hx => absurd hx List.not_mem_nil
  | y :: ys, own, h, x, hx => by
    obtain ⟨⟨⟩, later, earlier, rfl, hbody, hrest⟩ := Ran.bind h
    rcases List.mem_cons.mp hx with rfl | hmem
    · exact ⟨later, earlier, [], (List.append_nil _).symm, hbody⟩
    · obtain ⟨l, mid, e, rfl, hx⟩ := Ran.forEach ys hrest x hmem
      exact ⟨l, mid, e ++ earlier, by simp, hx⟩

end Task

/-! ## The processes of a run -/

theorem ownSteps_append (pid : Nat) (newer older : P.History) :
    ownSteps pid (newer ++ older) = ownSteps pid newer ++ ownSteps pid older := by
  induction newer with
  | nil => rfl
  | cons e newer ih =>
    cases e with
    | ran q step =>
      simp only [List.cons_append, ownSteps]
      split
      · rw [ih, List.cons_append]
      · exact ih
    | stopped q call => exact ih

/-- The latest step of a process was taken. -/
theorem ran_of_ownSteps {pid : Nat} {past : P.History} {step : P.Step} {own : List P.Step}
    (h : ownSteps pid past = step :: own) : .ran pid step ∈ past := by
  rw [← mem_ownSteps, h]
  exact List.mem_cons_self

/-- Where a process stood between two of its steps. -/
theorem split_between {pid : Nat} {past : P.History} {a b : List P.Step}
    (h : ownSteps pid past = a ++ b) :
    ∃ newer older, past = newer ++ older ∧ ownSteps pid newer = a ∧ ownSteps pid older = b := by
  induction past generalizing a with
  | nil =>
    obtain ⟨rfl, rfl⟩ := List.nil_eq_append_iff.mp h
    exact ⟨[], [], rfl, rfl, rfl⟩
  | cons e past ih =>
    cases a with
    | nil => exact ⟨[], e :: past, rfl, rfl, h⟩
    | cons step a =>
      cases e with
      | stopped q call =>
        obtain ⟨newer, older, rfl, hnewer, holder⟩ := ih (a := step :: a) h
        exact ⟨.stopped q call :: newer, older, rfl, hnewer, holder⟩
      | ran q st =>
        by_cases hq : q = pid
        · subst hq
          rw [ownSteps_same, List.cons_append] at h
          obtain ⟨rfl, hrest⟩ := List.cons.inj h
          obtain ⟨newer, older, rfl, hnewer, holder⟩ := ih hrest
          exact ⟨.ran q st :: newer, older, rfl, by rw [ownSteps_same, hnewer], holder⟩
        · rw [ownSteps_other st past hq] at h
          obtain ⟨newer, older, rfl, hnewer, holder⟩ := ih (a := step :: a) h
          exact ⟨.ran q st :: newer, older, rfl, by rw [ownSteps_other st newer hq, hnewer], holder⟩

/-- What is left of a process, after its steps, is what is left of its entry point. -/
def Replays (c : P.Config) : Prop :=
  (∀ pid p, c.proc pid = some p → ∀ later r, p.rest.Ran later r →
    (P.body p.call).Ran (later ++ ownSteps pid c.past) r) ∧
  ∀ pid step, .ran pid step ∈ c.past → pid < c.procs.length

theorem Replays.step {c c' : P.Config} {pid : Nat} {choice : P.Choice} (h : Replays c)
    (hact : P.act c (.step pid choice) = some c') : Replays c' := by
  obtain ⟨call, op, k, res, world, hproc, -, rfl⟩ := act_step hact
  refine ⟨fun q p hp later r hrest => ?_, fun q step hmem => ?_⟩
  · rw [proc_set c (proc_lt hproc)] at hp
    by_cases hq : q = pid
    · subst hq
      rw [if_pos rfl] at hp
      obtain rfl := Option.some.inj hp
      have hran := h.1 q _ hproc (later ++ [⟨call, op, res, c.world, world⟩]) r
        ⟨call, res, c.world, world, later, rfl, hrest⟩
      simpa [ownSteps] using hran
    · rw [if_neg hq] at hp
      show (P.body p.call).Ran (later ++ ownSteps q (.ran pid _ :: c.past)) r
      rw [ownSteps_other _ _ (Ne.symm hq)]
      exact h.1 q p hp later r hrest
  · rcases List.mem_cons.mp hmem with heq | hold
    · cases heq
      simpa using proc_lt hproc
    · simpa using h.2 q step hold

/-- **A process ran its entry point.** -/
theorem ran_of_run {w : P.World} {as : List P.Action} {c : P.Config}
    (hrun : P.run (Config.init w) as = some c) {pid : Nat} {call : P.Call}
    {r : Except P.sig.Err P.Ret} (hproc : c.proc pid = some ⟨call, .settled r⟩) :
    (P.body call).Ran (ownSteps pid c.past) r := by
  have hinit : Replays (Config.init w : P.Config) := by
    refine ⟨fun pid p hp => ?_, fun _ _ hmem => absurd hmem List.not_mem_nil⟩
    exact absurd (proc_lt hp) (Nat.not_lt_zero pid)
  have hall : Replays c := by
    refine run_induction (P := P) Replays hinit ?_ as hrun
    intro c a c' h hact
    cases a with
    | spawn started =>
      obtain rfl := (Option.some.inj hact).symm
      refine ⟨fun q p hp later r hrest => ?_, fun q step hmem => ?_⟩
      · rw [proc_spawn c _ c.world c.past] at hp
        by_cases hq : q = c.procs.length
        · rw [if_pos hq] at hp
          obtain rfl := Option.some.inj hp
          have hnone : ownSteps q c.past = [] :=
            ownSteps_fresh fun q' step hmem => by
              have hlt := h.2 q' step hmem
              omega
          show (P.body started).Ran (later ++ ownSteps q c.past) r
          rw [hnone, List.append_nil]
          exact hrest
        · rw [if_neg hq] at hp
          exact h.1 q p hp later r hrest
      · have hlt := h.2 q step hmem
        simp only [List.length_append, List.length_singleton]
        omega
    | step pid choice => exact h.step hact
    | stop pid =>
      obtain ⟨p, hproc, rfl⟩ := act_stop hact
      refine ⟨fun q p' hp later r hrest => ?_, fun q step hmem => ?_⟩
      · rw [proc_set c (proc_lt hproc)] at hp
        by_cases hq : q = pid
        · rw [if_pos hq] at hp
          cases hp
        · rw [if_neg hq] at hp
          exact h.1 q p' hp later r hrest
      · have hold : Event.ran q step ∈ c.past := by simpa using hmem
        simpa using h.2 q step hold
    | env move =>
      obtain ⟨world, -, rfl⟩ := act_env hact
      exact h
  have hran := hall.1 pid _ hproc [] r ⟨rfl, rfl⟩
  exact hran

/-! ## What the events of a run find -/

/-- What the newest step of a past left, as `f` sees it; `b` before any. -/
def lastView (f : P.World → β) (b : β) : P.History → β
  | [] => b
  | .ran _ step :: _ => f step.after
  | .stopped _ _ :: older => lastView f b older

/-- A step finds what the one before it left, and is an answer to its call. -/
def FindsLast (f : P.World → β) (b : β) (older : P.History) : P.Event → Prop
  | .ran _ step => f step.before = lastView f b older ∧
      ∃ choice, P.exec step.op choice step.before = some (step.res, step.after)
  | .stopped _ _ => True

/-- **The events of a run are a chain**, as far as the environment leaves the view alone. -/
theorem views {f : P.World → β} (henv : ∀ move w w', P.env move w = some w' → f w' = f w)
    {w : P.World} {as : List P.Action} {c : P.Config}
    (hrun : P.run (Config.init w) as = some c) :
    f c.world = lastView f (f w) c.past ∧ Throughout (FindsLast f (f w)) c.past := by
  have hinit : f (Config.init w : P.Config).world = lastView f (f w) ([] : P.History) ∧
      Throughout (FindsLast f (f w)) ([] : P.History) := ⟨rfl, trivial⟩
  refine run_induction (P := P) (fun c => f c.world = lastView f (f w) c.past ∧
    Throughout (FindsLast f (f w)) c.past) hinit ?_ as hrun
  rintro c a c' ⟨hlast, hpast⟩ hact
  cases a with
  | spawn call =>
    obtain rfl := (Option.some.inj hact).symm
    exact ⟨hlast, hpast⟩
  | step pid choice =>
    obtain ⟨call, op, k, res, world, -, hexec, rfl⟩ := act_step hact
    exact ⟨rfl, ⟨hlast, choice, hexec⟩, hpast⟩
  | stop pid =>
    obtain ⟨p, -, rfl⟩ := act_stop hact
    exact ⟨hlast, trivial, hpast⟩
  | env move =>
    obtain ⟨world, hmove, rfl⟩ := act_env hact
    exact ⟨(henv move c.world world hmove).trans hlast, hpast⟩

/-- What holds throughout a past held throughout its older part. -/
theorem Platform.Throughout.older {cond : P.History → P.Event → Prop} {older : P.History} :
    (newer : P.History) → Throughout cond (newer ++ older) → Throughout cond older
  | [], h => h
  | _ :: newer, h => Throughout.older newer h.2

/-- What every step of a stretch keeps, the stretch keeps. -/
theorem lastView_of_kept {f : P.World → β} {b : β} {I : β → Prop} {newer older : P.History}
    (hpast : Throughout (FindsLast f b) (newer ++ older))
    (hkept : ∀ pid step, .ran pid step ∈ newer →
      (∃ choice, P.exec step.op choice step.before = some (step.res, step.after)) →
      I (f step.before) → I (f step.after))
    (hi : I (lastView f b older)) : I (lastView f b (newer ++ older)) := by
  induction newer with
  | nil => exact hi
  | cons e newer ih =>
    have hbefore : I (lastView f b (newer ++ older)) :=
      ih hpast.2 fun pid step hmem => hkept pid step (List.mem_cons_of_mem _ hmem)
    cases e with
    | ran pid step =>
      obtain ⟨⟨hfinds, hexec⟩, -⟩ := hpast
      refine hkept pid step List.mem_cons_self hexec ?_
      rw [hfinds]
      exact hbefore
    | stopped pid call => exact hbefore

end Effects
