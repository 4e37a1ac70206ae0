import AppPort.Lib.Discipline

/-!
# Traces — what a process did before this call

The most permissive discipline: the phase of a process is the list of its own
answered calls, newest first. A condition on one step may then look at everything
the same process did before, and `Traced.sound` reads it off the history of a run:
every step of every process satisfied the condition of its own earlier steps.

Facts about a trace are stated so that they survive its growth (membership), and
`List.IsSuffix` is how a task says that it only added to the trace.
-/

namespace Effects

open Platform

variable {P : Platform}

/-- The steps process `pid` took in a past, newest first. -/
def ownSteps (pid : Nat) : P.History → List P.Step
  | [] => []
  | .ran q step :: past => if q = pid then step :: ownSteps pid past else ownSteps pid past
  | .stopped _ _ :: past => ownSteps pid past

theorem mem_ownSteps {pid : Nat} {step : P.Step} :
    {past : P.History} → step ∈ ownSteps pid past ↔ Event.ran pid step ∈ past
  | [] => by simp [ownSteps]
  | .ran q st :: past => by
    by_cases h : q = pid
    · subst h
      simp [ownSteps, mem_ownSteps]
    · have hne : ¬ pid = q := fun he => h he.symm
      simp [ownSteps, h, hne, mem_ownSteps]
  | .stopped q call :: past => by simp [ownSteps, mem_ownSteps]

theorem ownSteps_same (pid : Nat) (step : P.Step) (past : P.History) :
    ownSteps pid (.ran pid step :: past) = step :: ownSteps pid past := if_pos rfl

theorem ownSteps_other {pid q : Nat} (step : P.Step) (past : P.History) (h : q ≠ pid) :
    ownSteps pid (.ran q step :: past) = ownSteps pid past := if_neg h

/-- A process that has not moved yet has no steps. -/
theorem ownSteps_fresh {pid : Nat} {past : P.History}
    (h : ∀ q step, Event.ran q step ∈ past → q ≠ pid) : ownSteps pid past = [] := by
  refine List.eq_nil_iff_forall_not_mem.mpr fun step hm => ?_
  exact h pid step (mem_ownSteps.mp hm) rfl

/-- Where a process took a step after these. -/
theorem split_ownSteps {pid : Nat} {step : P.Step} {own : List P.Step} :
    {past : P.History} → step :: own <:+ ownSteps pid past →
    ∃ newer older, past = newer ++ .ran pid step :: older ∧ ownSteps pid older = own
  | [], h => by
    have hnil := List.eq_nil_of_suffix_nil h
    cases hnil
  | .ran q st :: past, h => by
    by_cases hq : q = pid
    · subst hq
      rw [ownSteps_same] at h
      rcases List.suffix_cons_iff.mp h with heq | h
      · obtain ⟨rfl, rfl⟩ := List.cons.inj heq
        exact ⟨[], past, rfl, rfl⟩
      · obtain ⟨newer, older, rfl, hown⟩ := split_ownSteps h
        exact ⟨.ran q st :: newer, older, rfl, hown⟩
    · rw [ownSteps_other st past hq] at h
      obtain ⟨newer, older, rfl, hown⟩ := split_ownSteps h
      exact ⟨.ran q st :: newer, older, rfl, hown⟩
  | .stopped q call :: past, h => by
    obtain ⟨newer, older, rfl, hown⟩ := @split_ownSteps _ _ _ past h
    exact ⟨.stopped q call :: newer, older, rfl, hown⟩

/-- A process had `op` answered with `res`. -/
def Answered (own : List P.Step) (op : P.sig.Op) (res : Except P.sig.Err (P.sig.Out op)) : Prop :=
  ∃ call before after, (⟨call, op, res, before, after⟩ : P.Step) ∈ own

theorem Answered.mono {own own' : List P.Step} {op : P.sig.Op}
    {res : Except P.sig.Err (P.sig.Out op)} (h : Answered own op res) (hs : own <:+ own') :
    Answered own' op res := by
  obtain ⟨call, before, after, hm⟩ := h
  exact ⟨call, before, after, hs.subset hm⟩

theorem Answered.head (own : List P.Step) (call : P.Call) (op : P.sig.Op)
    (res : Except P.sig.Err (P.sig.Out op)) (before after : P.World) :
    Answered (⟨call, op, res, before, after⟩ :: own) op res :=
  ⟨call, before, after, List.mem_cons_self⟩

/-- The discipline whose phases are traces: `allowed own step` says when a process
that took the steps `own` may take `step`. -/
abbrev traced (allowed : List P.Step → P.Step → Prop)
    (final : P.Call → Except P.sig.Err P.Ret → List P.Step → Prop) : Discipline P where
  Phase := List P.Step
  start _ := []
  next own step own' := allowed own step ∧ own' = step :: own
  final := final

namespace Traced

variable {allowed : List P.Step → P.Step → Prop}
variable {final : P.Call → Except P.sig.Err P.Ret → List P.Step → Prop}

/-- The invariant `sound` is proved from: phases are own traces, and every step of
the past was allowed. -/
def Follows (allowed : List P.Step → P.Step → Prop) (past : P.History)
    (phases : Nat → Option (List P.Step)) : Prop :=
  (∀ pid own, phases pid = some own → own = ownSteps pid past) ∧
  ∀ newer pid step older, past = newer ++ .ran pid step :: older →
    allowed (ownSteps pid older) step

theorem inductive_follows (cond : P.History → P.Event → Prop) :
    (traced allowed final).Inductive cond (fun _ past phases => Follows allowed past phases) where
  spawn := by
    rintro w past phases pid call - ⟨hown, hpast⟩ - - hfresh
    refine ⟨fun q own hq => ?_, hpast⟩
    by_cases hqp : q = pid
    · subst hqp
      rw [Discipline.Phases.move_same] at hq
      obtain rfl := Option.some.inj hq
      exact (ownSteps_fresh hfresh).symm
    · rw [Discipline.Phases.move_other _ _ hqp] at hq
      exact hown q own hq
  step := by
    rintro past phases pid own own' step choice - ⟨hown, hpast⟩ hph - ⟨hallowed, rfl⟩ -
    obtain rfl := hown pid own hph
    refine ⟨fun q own hq => ?_, fun newer q st older heq => ?_⟩
    · by_cases hqp : q = pid
      · subst hqp
        rw [Discipline.Phases.move_same] at hq
        obtain rfl := Option.some.inj hq
        simp [ownSteps]
      · rw [Discipline.Phases.move_other _ _ hqp] at hq
        rw [hown q own hq]
        simp [ownSteps, Ne.symm hqp]
    · cases newer with
      | nil =>
        obtain ⟨heq, rfl⟩ := List.cons.inj heq
        cases heq
        exact hallowed
      | cons e newer => exact hpast newer q st older (List.cons.inj heq).2
  stop := by
    rintro w past phases pid own call - ⟨hown, hpast⟩ - -
    refine ⟨fun q own hq => ?_, fun newer q st older heq => ?_⟩
    · by_cases hqp : q = pid
      · subst hqp
        rw [Discipline.Phases.move_same] at hq
        cases hq
      · rw [Discipline.Phases.move_other _ _ hqp] at hq
        exact hown q own hq
    · cases newer with
      | nil => cases (List.cons.inj heq).1
      | cons e newer => exact hpast newer q st older (List.cons.inj heq).2
  env := fun _ _ h _ => h

/-- A run of programs that obey the discipline follows it. -/
theorem follows (hD : (traced allowed final).Obeyed) {w : P.World} {as : List P.Action}
    {c : P.Config} (hrun : P.run (Config.init w) as = some c) :
    ∃ phases, Follows allowed c.past phases ∧ (traced allowed final).Tracks c phases := by
  have htrue : ∀ past : P.History, Throughout (fun _ _ => True) past := by
    intro past
    induction past with
    | nil => trivial
    | cons e past ih => exact ⟨trivial, ih⟩
  have hinit : Follows allowed ([] : P.History) (fun _ => none) := by
    refine ⟨fun _ _ h => (nomatch h), fun newer _ _ _ heq => ?_⟩
    cases newer <;> cases heq
  exact Discipline.sound hD (inductive_follows (fun _ _ => True)) hinit hrun (htrue c.past)

/-- **Every step was allowed by what its process did before it.** -/
theorem sound (hD : (traced allowed final).Obeyed) {w : P.World} {as : List P.Action}
    {c : P.Config} (hrun : P.run (Config.init w) as = some c) {newer older : P.History} {pid : Nat}
    {step : P.Step} (hpast : c.past = newer ++ .ran pid step :: older) :
    allowed (ownSteps pid older) step := by
  obtain ⟨phases, hholds, -⟩ := follows hD hrun
  exact hholds.2 newer pid step older hpast

/-- **A process settled as its steps let it.** -/
theorem settled (hD : (traced allowed final).Obeyed) {w : P.World} {as : List P.Action}
    {c : P.Config} (hrun : P.run (Config.init w) as = some c) {pid : Nat} {call : P.Call}
    {r : Except P.sig.Err P.Ret} (hproc : c.proc pid = some ⟨call, .settled r⟩) :
    final call r (ownSteps pid c.past) := by
  obtain ⟨phases, hholds, htracks⟩ := follows hD hrun
  obtain ⟨own, hown, hfinal⟩ := htracks.live pid _ hproc
  have heq : own = ownSteps pid c.past := hholds.1 pid own hown
  exact heq ▸ hfinal

variable {α β : Type} {call : P.Call}

/-- The task only makes allowed calls, adds them to its trace, and settles with `Q`
of its result and the trace it leaves. -/
def Grows (allowed : List P.Step → P.Step → Prop)
    (final : P.Call → Except P.sig.Err P.Ret → List P.Step → Prop) (call : P.Call)
    (t : Task P.sig α) (own : List P.Step) (Q : Except P.sig.Err α → List P.Step → Prop) : Prop :=
  (traced allowed final).Conforms call t own (fun r own' => own <:+ own' ∧ Q r own')

theorem Grows.settled {r : Except P.sig.Err α} {own : List P.Step}
    {Q : Except P.sig.Err α → List P.Step → Prop} (h : Q r own) :
    Grows allowed final call (.settled r) own Q := ⟨List.suffix_refl own, h⟩

theorem Grows.mono {t : Task P.sig α} {own : List P.Step}
    {Q Q' : Except P.sig.Err α → List P.Step → Prop} (ht : Grows allowed final call t own Q)
    (h : ∀ r own', own <:+ own' → Q r own' → Q' r own') : Grows allowed final call t own Q' :=
  Discipline.Conforms.mono (fun r own' hq => ⟨hq.1, h r own' hq.1 hq.2⟩) ht

/-- **Sequencing.** Whatever the first half added stays on the trace. -/
theorem Grows.settleWith {t : Task P.sig α} {f : Except P.sig.Err α → Task P.sig β}
    {own : List P.Step} {Q : Except P.sig.Err α → List P.Step → Prop}
    {R : Except P.sig.Err β → List P.Step → Prop} (ht : Grows allowed final call t own Q)
    (hf : ∀ r own', own <:+ own' → Q r own' → Grows allowed final call (f r) own' R) :
    Grows allowed final call (t.settleWith f) own R := by
  refine Discipline.Conforms.settleWith (fun r own' hq => ?_) ht
  exact Discipline.Conforms.mono (fun r' own'' hr => ⟨hq.1.trans hr.1, hr.2⟩)
    (hf r own' hq.1 hq.2)

theorem Grows.bind {t : Task P.sig α} {f : α → Task P.sig β} {own : List P.Step}
    {Q : Except P.sig.Err α → List P.Step → Prop} {R : Except P.sig.Err β → List P.Step → Prop}
    (ht : Grows allowed final call t own Q)
    (hok : ∀ a own', own <:+ own' → Q (.ok a) own' → Grows allowed final call (f a) own' R)
    (herr : ∀ e own', own <:+ own' → Q (.error e) own' → R (.error e) own') :
    Grows allowed final call (t.bind f) own R := by
  refine ht.settleWith fun r own' hs hq => ?_
  cases r with
  | ok a => exact hok a own' hs hq
  | error e => exact Grows.settled (herr e own' hs hq)

theorem Grows.tryCatch {t : Task P.sig α} {h : P.sig.Err → Task P.sig α} {own : List P.Step}
    {Q : Except P.sig.Err α → List P.Step → Prop} {R : Except P.sig.Err α → List P.Step → Prop}
    (ht : Grows allowed final call t own Q)
    (hok : ∀ a own', own <:+ own' → Q (.ok a) own' → R (.ok a) own')
    (herr : ∀ e own', own <:+ own' → Q (.error e) own' →
      Grows allowed final call (h e) own' R) :
    Grows allowed final call (t.tryCatch h) own R := by
  refine ht.settleWith fun r own' hs hq => ?_
  cases r with
  | ok a => exact Grows.settled (hok a own' hs hq)
  | error e => exact herr e own' hs hq

/-- A value that is already there, and what follows. -/
theorem Grows.ofExcept_bind {r : Except P.sig.Err α} {f : α → Task P.sig β} {own : List P.Step}
    {R : Except P.sig.Err β → List P.Step → Prop}
    (hok : ∀ a, r = .ok a → Grows allowed final call (f a) own R)
    (herr : ∀ e, r = .error e → R (.error e) own) :
    Grows allowed final call ((Task.ofExcept r).bind f) own R := by
  cases r with
  | ok a => exact hok a rfl
  | error e => exact Grows.settled (herr e rfl)

/-- Observe how a task settles. -/
theorem Grows.attempt {t : Task P.sig α} {own : List P.Step}
    {Q : Except P.sig.Err α → List P.Step → Prop} (ht : Grows allowed final call t own Q) :
    Grows allowed final call t.attempt own (fun r own' => ∃ r', r = .ok r' ∧ Q r' own') :=
  ht.settleWith fun r _ _ hq => Grows.settled ⟨r, rfl, hq⟩

/-- Await one call: executing it is the next step. -/
theorem Grows.perform_next {op : P.sig.Op} {own : List P.Step}
    (hallowed : ∀ res before after, allowed own ⟨call, op, res, before, after⟩) :
    Grows allowed final call (Task.perform op) own (fun res own' =>
      ∃ choice before after, P.exec op choice before = some (res, after) ∧
        own' = (⟨call, op, res, before, after⟩ : P.Step) :: own) := by
  intro choice before res after hexec
  exact ⟨_, ⟨hallowed res before after, rfl⟩, List.suffix_cons _ _,
    choice, before, after, hexec, rfl⟩

/-- Await one call, and keep what executing it did. -/
theorem Grows.perform_exec {op : P.sig.Op} {own : List P.Step}
    (hallowed : ∀ res before after, allowed own ⟨call, op, res, before, after⟩) :
    Grows allowed final call (Task.perform op) own (fun res own' =>
      ∃ choice before after, P.exec op choice before = some (res, after) ∧
        (⟨call, op, res, before, after⟩ : P.Step) ∈ own') := by
  refine Grows.mono (Grows.perform_next hallowed) ?_
  rintro res own' - ⟨choice, before, after, hexec, rfl⟩
  exact ⟨choice, before, after, hexec, List.mem_cons_self⟩

/-- Await one call, and keep how it was answered. -/
theorem Grows.perform {op : P.sig.Op} {own : List P.Step}
    (hallowed : ∀ res before after, allowed own ⟨call, op, res, before, after⟩) :
    Grows allowed final call (Task.perform op) own (fun res own' => Answered own' op res) := by
  refine Grows.mono (Grows.perform_next hallowed) ?_
  rintro res own' - ⟨choice, before, after, -, rfl⟩
  exact Answered.head ..

/-- A task whose calls are allowed from here on only adds to the trace. -/
theorem Grows.of_uses_from {calls : Set P.sig.Op} :
    {t : Task P.sig α} → {own : List P.Step} →
    (∀ op ∈ calls, ∀ own', own <:+ own' → ∀ res before after,
      allowed own' ⟨call, op, res, before, after⟩) →
    t.Uses calls → Grows allowed final call t own (fun _ _ => True)
  | .settled _, _, _, _ => Grows.settled trivial
  | .await op _, own, hcalls, hu => fun _ before res after _ =>
    ⟨_, ⟨hcalls op hu.1 own (List.suffix_refl own) res before after, rfl⟩,
      Discipline.Conforms.mono (fun _ _ h => ⟨(List.suffix_cons _ _).trans h.1, trivial⟩)
        (of_uses_from (fun op' hop own' hs => hcalls op' hop own' ((List.suffix_cons _ _).trans hs))
          (hu.2 res))⟩

/-- A task whose calls are always allowed only adds to the trace. -/
theorem Grows.of_uses {calls : Set P.sig.Op}
    (hcalls : ∀ op ∈ calls, ∀ own res before after, allowed own ⟨call, op, res, before, after⟩)
    {t : Task P.sig α} {own : List P.Step} (hu : t.Uses calls) :
    Grows allowed final call t own (fun _ _ => True) :=
  Grows.of_uses_from (fun op hop own' _ => hcalls op hop own') hu

end Traced

end Effects
