import AppPort.Lib.Pool

/-!
# Disciplines — what a process may do next, as a phase

An invariant of a pool needs to know, of each process, where it stands: what it
has read, whether it holds a claim, whether its effect has begun. A `Discipline`
is that knowledge as an automaton: each entry point starts in a phase, and `next`
says which answered calls are allowed from a phase and which phase they lead to.

A task *conforms* when every call it can make, however it is answered, is allowed
from the phase it is then in. Conformance is a property of the sequential text of
one entry point: other processes cannot move a phase, so no interference enters.

`Discipline.sound` is the bridge. If every entry point conforms, then to prove an
invariant of all runs it is enough to prove it along `next`: for one allowed step
of one phase, with nothing left of the program but that step.
-/

namespace Effects

open Platform

/-- A phase automaton over the answered calls of a platform. -/
structure Discipline (P : Platform) where
  /-- Where a process stands. -/
  Phase : Type
  /-- The phase an entry point starts in. -/
  start : P.Call → Phase
  /-- The answered calls allowed from a phase, and the phase each leads to. -/
  next : Phase → P.Step → Phase → Prop
  /-- The phases an entry point may settle in. -/
  final : P.Call → Except P.sig.Err P.Ret → Phase → Prop

namespace Discipline

variable {P : Platform} (D : Discipline P)

/-- Every call of the task is allowed from the phase it is made in, and the task
settles with `Q` of its result and last phase. -/
def Conforms {α : Type} (call : P.Call) : Task P.sig α → D.Phase →
    (Except P.sig.Err α → D.Phase → Prop) → Prop
  | .settled r, ph, Q => Q r ph
  | .await op k, ph, Q =>
    ∀ choice before res after, P.exec op choice before = some (res, after) →
      ∃ ph', D.next ph ⟨call, op, res, before, after⟩ ph' ∧ Conforms call (k res) ph' Q

/-- Every entry point conforms from its starting phase. -/
def Obeyed : Prop := ∀ call, D.Conforms call (P.body call) (D.start call) (D.final call)

variable {D} {α β : Type} {call : P.Call}

@[simp] theorem conforms_settled (r : Except P.sig.Err α) (ph : D.Phase)
    (Q : Except P.sig.Err α → D.Phase → Prop) :
    D.Conforms call (.settled r) ph Q ↔ Q r ph := Iff.rfl

/-- Weaken what is said about the result. -/
theorem Conforms.mono {Q Q' : Except P.sig.Err α → D.Phase → Prop} (h : ∀ r ph, Q r ph → Q' r ph) :
    {t : Task P.sig α} → {ph : D.Phase} → D.Conforms call t ph Q → D.Conforms call t ph Q'
  | .settled r, ph, hq => h r ph hq
  | .await _ _, _, hc => fun choice before res after hexec =>
    let ⟨ph', hnext, hrest⟩ := hc choice before res after hexec
    ⟨ph', hnext, hrest.mono h⟩

/-- **The sequencing rule.** -/
theorem Conforms.settleWith {Q : Except P.sig.Err α → D.Phase → Prop}
    {R : Except P.sig.Err β → D.Phase → Prop} {f : Except P.sig.Err α → Task P.sig β}
    (hf : ∀ r ph, Q r ph → D.Conforms call (f r) ph R) :
    {t : Task P.sig α} → {ph : D.Phase} → D.Conforms call t ph Q →
    D.Conforms call (t.settleWith f) ph R
  | .settled r, ph, hq => hf r ph hq
  | .await _ _, _, hc => fun choice before res after hexec =>
    let ⟨ph', hnext, hrest⟩ := hc choice before res after hexec
    ⟨ph', hnext, hrest.settleWith hf⟩

/-- What every value of the task satisfies is known of the one it settles with. -/
theorem Conforms.yields {Q : Except P.sig.Err α → D.Phase → Prop} {R : α → Prop} :
    {t : Task P.sig α} → {ph : D.Phase} → D.Conforms call t ph Q → t.Yields R →
    D.Conforms call t ph (fun r ph' => Q r ph' ∧ ∀ a, r = .ok a → R a)
  | .settled (.ok a), _, hq, hy => ⟨hq, fun b hb => by
      obtain rfl := Except.ok.inj hb
      exact hy⟩
  | .settled (.error _), _, hq, _ => ⟨hq, fun _ hb => nomatch hb⟩
  | .await _ _, _, hc, hy => fun choice before res after hexec =>
    let ⟨ph', hnext, hrest⟩ := hc choice before res after hexec
    ⟨ph', hnext, hrest.yields (hy res)⟩

/-- Sequencing on success: an error of the first half is the whole's. -/
theorem Conforms.bind {Q : Except P.sig.Err α → D.Phase → Prop}
    {R : Except P.sig.Err β → D.Phase → Prop} {t : Task P.sig α} {f : α → Task P.sig β}
    {ph : D.Phase} (ht : D.Conforms call t ph Q)
    (hok : ∀ a ph, Q (.ok a) ph → D.Conforms call (f a) ph R)
    (herr : ∀ e ph, Q (.error e) ph → R (.error e) ph) :
    D.Conforms call (t.bind f) ph R := by
  refine ht.settleWith fun r ph' hq => ?_
  cases r with
  | ok a => exact hok a ph' hq
  | error e => exact herr e ph' hq

/-- Sequencing on failure: a value of the first half is the whole's. -/
theorem Conforms.tryCatch {Q : Except P.sig.Err α → D.Phase → Prop}
    {R : Except P.sig.Err α → D.Phase → Prop} {t : Task P.sig α} {f : P.sig.Err → Task P.sig α}
    {ph : D.Phase} (ht : D.Conforms call t ph Q)
    (hok : ∀ a ph, Q (.ok a) ph → R (.ok a) ph)
    (herr : ∀ e ph, Q (.error e) ph → D.Conforms call (f e) ph R) :
    D.Conforms call (t.tryCatch f) ph R := by
  refine ht.settleWith fun r ph' hq => ?_
  cases r with
  | ok a => exact hok a ph' hq
  | error e => exact herr e ph' hq

/-- Ignoring how a task settles keeps what it did to the phase. -/
theorem Conforms.ignore {Q : D.Phase → Prop} {t : Task P.sig α} {ph : D.Phase}
    (ht : D.Conforms call t ph (fun _ ph' => Q ph')) :
    D.Conforms call t.ignore ph (fun r ph' => r = .ok () ∧ Q ph') := by
  refine Conforms.settleWith (fun r ph' hq => ?_) ht
  exact ⟨rfl, hq⟩

/-- One awaited call: every answer is allowed and leads to a phase in `Q`. -/
theorem conforms_perform {op : P.sig.Op} {ph : D.Phase}
    {Q : Except P.sig.Err (P.sig.Out op) → D.Phase → Prop}
    (h : ∀ choice before res after, P.exec op choice before = some (res, after) →
      ∃ ph', D.next ph ⟨call, op, res, before, after⟩ ph' ∧ Q res ph') :
    D.Conforms call (Task.perform op) ph Q := h

/-- Await one call and go on with its value. -/
theorem Conforms.await_bind {op : P.sig.Op} {f : P.sig.Out op → Task P.sig β} {ph : D.Phase}
    {R : Except P.sig.Err β → D.Phase → Prop}
    (h : ∀ choice before res after, P.exec op choice before = some (res, after) →
      ∃ ph', D.next ph ⟨call, op, res, before, after⟩ ph' ∧
        match res with
        | .ok a => D.Conforms call (f a) ph' R
        | .error e => R (.error e) ph') :
    D.Conforms call ((Task.perform op).bind f) ph R := by
  intro choice before res after hexec
  obtain ⟨ph', hnext, hrest⟩ := h choice before res after hexec
  refine ⟨ph', hnext, ?_⟩
  cases res with
  | ok a => exact hrest
  | error e => exact hrest

/-- Calls that leave the phase alone whatever their answer. -/
def Idle (D : Discipline P) (call : P.Call) (ph : D.Phase) : Set P.sig.Op :=
  {op | ∀ choice before res after, P.exec op choice before = some (res, after) →
    D.next ph ⟨call, op, res, before, after⟩ ph}

/-- An idle call, and what executing it answered. -/
theorem Conforms.perform_idle {op : P.sig.Op} {ph : D.Phase} (h : op ∈ D.Idle call ph) :
    D.Conforms call (Task.perform op) ph (fun res ph' => ph' = ph ∧
      ∃ choice before after, P.exec op choice before = some (res, after)) :=
  fun choice before res after hexec =>
    ⟨ph, h choice before res after hexec, rfl, choice, before, after, hexec⟩

/-- A task that makes only idle calls conforms, and settles in the phase it
started in. -/
theorem Conforms.of_idle {ph : D.Phase} :
    {t : Task P.sig α} → t.Uses (D.Idle call ph) → D.Conforms call t ph (fun _ ph' => ph' = ph)
  | .settled _, _ => rfl
  | .await _ _, hu => fun choice before res after hexec =>
    ⟨ph, hu.1 choice before res after hexec, Conforms.of_idle (hu.2 res)⟩

/-- The loop rule: `I` is a phase invariant of the body, errors leave the loop. -/
theorem Conforms.forEach {f : β → Task P.sig Unit} {I : D.Phase → Prop}
    {Q : Except P.sig.Err Unit → D.Phase → Prop}
    (hbody : ∀ x ph, I ph → D.Conforms call (f x) ph
      (fun r ph' => match r with | .ok _ => I ph' | .error e => Q (.error e) ph'))
    (hdone : ∀ ph, I ph → Q (.ok ()) ph) :
    (xs : List β) → {ph : D.Phase} → I ph → D.Conforms call (Task.forEach f xs) ph Q
  | [], ph, hI => hdone ph hI
  | x :: xs, ph, hI =>
    (hbody x ph hI).bind (fun _ _ hI' => Conforms.forEach hbody hdone xs hI') (fun _ _ hq => hq)

/-! ## From conformance to invariants of runs -/

/-- The phases of a pool: one for each process that exists and was not stopped. -/
abbrev Phases (D : Discipline P) := Nat → Option D.Phase

/-- The phase map of a configuration: every process conforms from its phase. -/
structure Tracks (D : Discipline P) (c : P.Config) (phases : D.Phases) : Prop where
  /-- A live process stands in a phase from which the rest of its task conforms. -/
  live : ∀ pid p, c.proc pid = some p →
    ∃ ph, phases pid = some ph ∧ D.Conforms p.call p.rest ph (D.final p.call)
  /-- A process that was never started, or was stopped, has no phase. -/
  gone : ∀ pid, c.proc pid = none → phases pid = none

/-- Move one process to a phase. -/
def Phases.move (phases : D.Phases) (pid : Nat) (ph : Option D.Phase) : D.Phases :=
  fun q => if q = pid then ph else phases q

@[simp] theorem Phases.move_same (phases : D.Phases) (pid : Nat) (ph : Option D.Phase) :
    Phases.move phases pid ph pid = ph := if_pos rfl

theorem Phases.move_other (phases : D.Phases) {pid q : Nat} (ph : Option D.Phase) (h : q ≠ pid) :
    Phases.move phases pid ph q = phases q := if_neg h

theorem Tracks.spawn {c : P.Config} {phases : D.Phases} (hD : D.Obeyed) (h : D.Tracks c phases)
    (call : P.Call) :
    D.Tracks { c with procs := c.procs ++ [some ⟨call, P.body call⟩] }
      (Phases.move phases c.procs.length (some (D.start call))) := by
  constructor
  · intro pid p hp
    rw [proc_spawn] at hp
    by_cases hq : pid = c.procs.length
    · rw [if_pos hq] at hp
      subst hq
      obtain rfl := (Option.some.inj hp).symm
      exact ⟨D.start call, Phases.move_same .., hD call⟩
    · rw [if_neg hq] at hp
      rw [Phases.move_other phases _ hq]
      exact h.live pid p hp
  · intro pid hp
    rw [proc_spawn] at hp
    by_cases hq : pid = c.procs.length
    · rw [if_pos hq] at hp
      cases hp
    · rw [if_neg hq] at hp
      rw [Phases.move_other phases _ hq]
      exact h.gone pid hp

theorem Tracks.set {c : P.Config} {phases : D.Phases} {pid : Nat} (h : D.Tracks c phases)
    (hlt : pid < c.procs.length) (world : P.World) (past : P.History) {p : P.Process}
    {ph : D.Phase} (hconf : D.Conforms p.call p.rest ph (D.final p.call)) :
    D.Tracks ⟨c.procs.set pid (some p), world, past⟩ (Phases.move phases pid (some ph)) := by
  constructor
  · intro q p' hp
    rw [proc_set c hlt] at hp
    by_cases hq : q = pid
    · rw [if_pos hq] at hp
      subst hq
      obtain rfl := (Option.some.inj hp).symm
      exact ⟨ph, Phases.move_same .., hconf⟩
    · rw [if_neg hq] at hp
      rw [Phases.move_other phases _ hq]
      exact h.live q p' hp
  · intro q hp
    rw [proc_set c hlt] at hp
    by_cases hq : q = pid
    · rw [if_pos hq] at hp
      cases hp
    · rw [if_neg hq] at hp
      rw [Phases.move_other phases _ hq]
      exact h.gone q hp

theorem Tracks.stop {c : P.Config} {phases : D.Phases} {pid : Nat} (h : D.Tracks c phases)
    (hlt : pid < c.procs.length) (world : P.World) (past : P.History) :
    D.Tracks ⟨c.procs.set pid none, world, past⟩ (Phases.move phases pid none) := by
  constructor
  · intro q p' hp
    rw [proc_set c hlt] at hp
    by_cases hq : q = pid
    · rw [if_pos hq] at hp
      cases hp
    · rw [if_neg hq] at hp
      rw [Phases.move_other phases _ hq]
      exact h.live q p' hp
  · intro q hp
    rw [proc_set c hlt] at hp
    by_cases hq : q = pid
    · subst hq
      exact Phases.move_same ..
    · rw [if_neg hq] at hp
      rw [Phases.move_other phases _ hq]
      exact h.gone q hp

/-- Whoever stands somewhere is a live process. -/
theorem Tracks.standing {c : P.Config} {phases : D.Phases} {pid : Nat} {ph : D.Phase}
    (h : D.Tracks c phases) (hph : phases pid = some ph) :
    ∃ p, c.proc pid = some p ∧ D.Conforms p.call p.rest ph (D.final p.call) := by
  cases hproc : c.proc pid with
  | none =>
    rw [h.gone pid hproc] at hph
    cases hph
  | some p =>
    obtain ⟨ph', hph', hconf⟩ := h.live pid p hproc
    rw [hph] at hph'
    obtain rfl := Option.some.inj hph'
    exact ⟨p, rfl, hconf⟩

/-- An invariant of world, past and phases, with one obligation for each thing
the scheduler can do. `cond` is what is assumed of every event of the run, and
`Base` an invariant that is known already. -/
structure InductiveOver (D : Discipline P) (cond : P.History → P.Event → Prop)
    (Base Holds : P.World → P.History → D.Phases → Prop) : Prop where
  spawn : ∀ {w past phases pid} (call : P.Call), Base w past phases → Holds w past phases →
    phases pid = none →
    (∀ pid' call', .stopped pid' call' ∈ past → pid' ≠ pid) →
    (∀ pid' step, .ran pid' step ∈ past → pid' ≠ pid) →
    Holds w past (Phases.move phases pid (some (D.start call)))
  step : ∀ {past phases pid ph ph'} (step : P.Step) (choice : P.Choice),
    Base step.before past phases → Holds step.before past phases → phases pid = some ph →
    P.exec step.op choice step.before = some (step.res, step.after) → D.next ph step ph' →
    cond past (.ran pid step) →
    Holds step.after (.ran pid step :: past) (Phases.move phases pid (some ph'))
  stop : ∀ {w past phases pid ph} (call : P.Call), Base w past phases → Holds w past phases →
    phases pid = some ph → cond past (.stopped pid call) →
    Holds w (.stopped pid call :: past) (Phases.move phases pid none)
  env : ∀ {w w' past phases} (move : P.Env), Base w past phases → Holds w past phases →
    P.env move w = some w' → Holds w' past phases

/-- An invariant that needs no other. -/
abbrev Inductive (D : Discipline P) (cond : P.History → P.Event → Prop)
    (Holds : P.World → P.History → D.Phases → Prop) : Prop :=
  D.InductiveOver cond (fun _ _ _ => True) Holds

/-- An invariant over another, together with it. -/
theorem Inductive.and {cond : P.History → P.Event → Prop}
    {Base Holds : P.World → P.History → D.Phases → Prop} (hB : D.Inductive cond Base)
    (hH : D.InductiveOver cond Base Holds) :
    D.Inductive cond (fun w past phases => Base w past phases ∧ Holds w past phases) where
  spawn call _ h hnone hs hr :=
    ⟨hB.spawn call trivial h.1 hnone hs hr, hH.spawn call h.1 h.2 hnone hs hr⟩
  step st choice _ h hph hexec hnext hcond :=
    ⟨hB.step st choice trivial h.1 hph hexec hnext hcond,
      hH.step st choice h.1 h.2 hph hexec hnext hcond⟩
  stop call _ h hph hcond := ⟨hB.stop call trivial h.1 hph hcond, hH.stop call h.1 h.2 hph hcond⟩
  env move _ h henv := ⟨hB.env move trivial h.1 henv, hH.env move h.1 h.2 henv⟩

/-- It holds over any other. -/
theorem Inductive.over {cond : P.History → P.Event → Prop}
    {Base Holds : P.World → P.History → D.Phases → Prop} (h : D.Inductive cond Holds) :
    D.InductiveOver cond Base Holds where
  spawn call _ := h.spawn call trivial
  step st choice _ := h.step st choice trivial
  stop call _ := h.stop call trivial
  env move _ := h.env move trivial

/-- A stopped process stands nowhere. -/
theorem inductive_stopped (cond : P.History → P.Event → Prop) :
    D.Inductive cond (fun _ past phases =>
      ∀ pid call, .stopped pid call ∈ past → phases pid = none) where
  spawn := by
    intro w past phases pid call _ hholds _ hstopped _ q call' hm
    rw [Phases.move_other _ _ (hstopped q call' hm)]
    exact hholds q call' hm
  step := by
    intro past phases pid ph ph' step choice _ hholds hph _ _ _ q call hm
    have hm' : Event.stopped q call ∈ past := by simpa using hm
    have hnone := hholds q call hm'
    have hne : q ≠ pid := by
      rintro rfl
      rw [hph] at hnone
      cases hnone
    rw [Phases.move_other _ _ hne]
    exact hnone
  stop := by
    intro w past phases pid ph call _ hholds _ _ q call' hm
    by_cases hq : q = pid
    · subst hq
      exact Phases.move_same ..
    · rw [Phases.move_other _ _ hq]
      refine hholds q call' ?_
      rcases List.mem_cons.mp hm with heq | hm'
      · cases heq
        exact absurd rfl hq
      · exact hm'
  env := fun _ _ hholds _ => hholds

/-! ### Invariants one process at a time

Most invariants say something of world and past, and something of each process by
itself. For these the obligations are local: what a step does to the first half, to
the process that took it, and to the claims of the others. -/

/-- A step about to be shown to preserve such an invariant. -/
structure Taken (D : Discipline P) (cond : P.History → P.Event → Prop)
    (Base : P.World → P.History → D.Phases → Prop) (Good : P.World → P.History → Prop)
    (Sound : P.World → P.History → Nat → D.Phase → Prop) (past : P.History) (phases : D.Phases)
    (pid : Nat) (step : P.Step) (ph ph' : D.Phase) : Prop where
  base : Base step.before past phases
  good : Good step.before past
  sound : ∀ q phq, phases q = some phq → Sound step.before past q phq
  here : phases pid = some ph
  exec : ∃ choice, P.exec step.op choice step.before = some (step.res, step.after)
  next : D.next ph step ph'
  cond : cond past (.ran pid step)

/-- What the process that takes the step knows of itself. -/
theorem Taken.own {cond : P.History → P.Event → Prop}
    {Base : P.World → P.History → D.Phases → Prop} {Good : P.World → P.History → Prop}
    {Sound : P.World → P.History → Nat → D.Phase → Prop} {past : P.History} {phases : D.Phases}
    {pid : Nat} {step : P.Step} {ph ph' : D.Phase}
    (h : Taken D cond Base Good Sound past phases pid step ph ph') :
    Sound step.before past pid ph := h.sound pid ph h.here

/-- The obligations of `Good` of world and past together with `Sound` of each process. -/
structure LocalOver (D : Discipline P) (cond : P.History → P.Event → Prop)
    (Base : P.World → P.History → D.Phases → Prop) (Good : P.World → P.History → Prop)
    (Sound : P.World → P.History → Nat → D.Phase → Prop) : Prop where
  spawn : ∀ {w past pid} (call : P.Call), Good w past →
    (∀ pid' step, .ran pid' step ∈ past → pid' ≠ pid) → Sound w past pid (D.start call)
  good : ∀ {past phases pid step ph ph'},
    Taken D cond Base Good Sound past phases pid step ph ph' →
    Good step.after (.ran pid step :: past)
  own : ∀ {past phases pid step ph ph'},
    Taken D cond Base Good Sound past phases pid step ph ph' →
    Sound step.after (.ran pid step :: past) pid ph'
  other : ∀ {past phases pid step ph ph' q phq},
    Taken D cond Base Good Sound past phases pid step ph ph' → q ≠ pid → phases q = some phq →
    Sound step.after (.ran pid step :: past) q phq
  stopGood : ∀ {w past pid call}, Good w past → cond past (.stopped pid call) →
    Good w (.stopped pid call :: past)
  stopOther : ∀ {w past pid call q phq}, Good w past → Sound w past q phq →
    Sound w (.stopped pid call :: past) q phq
  envGood : ∀ {w w' past} (move : P.Env), Good w past → P.env move w = some w' → Good w' past
  envSound : ∀ {w w' past q phq} (move : P.Env), Good w past → Sound w past q phq →
    P.env move w = some w' → Sound w' past q phq

/-- Local obligations make an invariant. -/
theorem LocalOver.toInductive {cond : P.History → P.Event → Prop}
    {Base : P.World → P.History → D.Phases → Prop} {Good : P.World → P.History → Prop}
    {Sound : P.World → P.History → Nat → D.Phase → Prop} (h : D.LocalOver cond Base Good Sound) :
    D.InductiveOver cond Base (fun w past phases =>
      Good w past ∧ ∀ q phq, phases q = some phq → Sound w past q phq) where
  spawn := by
    intro w past phases pid call _ hholds _ _ hfresh
    have hgood := hholds.1
    refine ⟨hgood, fun q phq hq => ?_⟩
    by_cases hqp : q = pid
    · subst hqp
      rw [Phases.move_same] at hq
      obtain rfl := Option.some.inj hq
      exact h.spawn call hgood hfresh
    · rw [Phases.move_other _ _ hqp] at hq
      exact hholds.2 q phq hq
  step := by
    intro past phases pid ph ph' step choice hbase hholds hph hexec hnext hcond
    have htaken : Taken D cond Base Good Sound past phases pid step ph ph' :=
      ⟨hbase, hholds.1, hholds.2, hph, ⟨choice, hexec⟩, hnext, hcond⟩
    refine ⟨h.good htaken, fun q phq hq => ?_⟩
    by_cases hqp : q = pid
    · subst hqp
      rw [Phases.move_same] at hq
      obtain rfl := Option.some.inj hq
      exact h.own htaken
    · rw [Phases.move_other _ _ hqp] at hq
      exact h.other htaken hqp hq
  stop := by
    intro w past phases pid ph call _ hholds _ hcond
    refine ⟨h.stopGood hholds.1 hcond, fun q phq hq => ?_⟩
    by_cases hqp : q = pid
    · subst hqp
      rw [Phases.move_same] at hq
      cases hq
    · rw [Phases.move_other _ _ hqp] at hq
      exact h.stopOther hholds.1 (hholds.2 q phq hq)
  env := by
    intro w w' past phases move _ hholds henv
    exact ⟨h.envGood move hholds.1 henv,
      fun q phq hq => h.envSound move hholds.1 (hholds.2 q phq hq) henv⟩

/-- The events of a past were made by processes of the pool. -/
def Known (c : P.Config) : Prop :=
  (∀ pid call, Event.stopped pid call ∈ c.past → pid < c.procs.length) ∧
  (∀ pid step, Event.ran pid step ∈ c.past → pid < c.procs.length)

/-- **Soundness from where a run stands.** When every entry point conforms, an inductive
invariant that holds of a configuration and of phases from which its live processes
conform holds so after every further run whose events all satisfied `cond`. -/
theorem sound_from (hD : D.Obeyed) {cond : P.History → P.Event → Prop}
    {Holds : P.World → P.History → D.Phases → Prop} (hI : D.Inductive cond Holds)
    {c : P.Config} (hknown : Known c) {phases : D.Phases} (hholds : Holds c.world c.past phases)
    (htracks : D.Tracks c phases) {as : List P.Action} {c' : P.Config} (hrun : P.run c as = some c')
    (hcond : Throughout cond c'.past) :
    Known c' ∧ ∃ phases, Holds c'.world c'.past phases ∧ D.Tracks c' phases := by
  -- the induction carries the conclusion under the hypothesis on the past, which
  -- only grows, and that past events belong to processes of the pool
  have key : Known c' ∧ (Throughout cond c'.past →
      ∃ phases, Holds c'.world c'.past phases ∧ D.Tracks c' phases) := by
    refine run_induction (P := P)
      (fun c => Known c ∧ (Throughout cond c.past →
        ∃ phases, Holds c.world c.past phases ∧ D.Tracks c phases))
      ⟨hknown, fun _ => ⟨phases, hholds, htracks⟩⟩ ?_ as hrun
    rintro c a c' ⟨⟨hks, hkr⟩, hc⟩ hact
    cases a with
    | spawn call =>
      obtain rfl := (Option.some.inj hact).symm
      refine ⟨⟨fun pid call' hm => ?_, fun pid step hm => ?_⟩, fun hpast => ?_⟩
      · exact Nat.lt_of_lt_of_le (hks pid call' hm) (by simp)
      · exact Nat.lt_of_lt_of_le (hkr pid step hm) (by simp)
      · obtain ⟨phases, hholds, htracks⟩ := hc hpast
        refine ⟨_, hI.spawn call trivial hholds (htracks.gone _ ?_) ?_ ?_, htracks.spawn hD call⟩
        · unfold Config.proc
          rw [List.getElem?_eq_none (Nat.le_refl _)]
          rfl
        · exact fun pid' call' hm => Nat.ne_of_lt (hks pid' call' hm)
        · exact fun pid' step hm => Nat.ne_of_lt (hkr pid' step hm)
    | step pid choice =>
      obtain ⟨call, op, k, res, world, hproc, hexec, rfl⟩ := act_step hact
      refine ⟨⟨fun pid' call' hm => ?_, fun pid' step hm => ?_⟩, fun hpast => ?_⟩
      · have hm' : Event.stopped pid' call' ∈ c.past := by simpa using hm
        simpa using hks pid' call' hm'
      · rcases List.mem_cons.mp hm with heq | hm'
        · cases heq
          simpa using proc_lt hproc
        · simpa using hkr pid' step hm'
      · obtain ⟨phases, hholds, htracks⟩ := hc hpast.2
        obtain ⟨ph, hph, hconf⟩ := htracks.live pid _ hproc
        obtain ⟨ph', hnext, hrest⟩ := hconf choice c.world res world hexec
        exact ⟨_, hI.step ⟨call, op, res, c.world, world⟩ choice trivial hholds hph hexec hnext hpast.1,
          htracks.set (proc_lt hproc) _ _ hrest⟩
    | stop pid =>
      obtain ⟨p, hproc, rfl⟩ := act_stop hact
      refine ⟨⟨fun pid' call' hm => ?_, fun pid' step hm => ?_⟩, fun hpast => ?_⟩
      · rcases List.mem_cons.mp hm with heq | hm'
        · cases heq
          simpa using proc_lt hproc
        · simpa using hks pid' call' hm'
      · have hm' : Event.ran pid' step ∈ c.past := by simpa using hm
        simpa using hkr pid' step hm'
      · obtain ⟨phases, hholds, htracks⟩ := hc hpast.2
        obtain ⟨ph, hph, -⟩ := htracks.live pid _ hproc
        exact ⟨_, hI.stop p.call trivial hholds hph hpast.1, htracks.stop (proc_lt hproc) _ _⟩
    | env move =>
      obtain ⟨world, henv, rfl⟩ := act_env hact
      refine ⟨⟨hks, hkr⟩, fun hpast => ?_⟩
      obtain ⟨phases, hholds, htracks⟩ := hc hpast
      exact ⟨phases, hI.env move trivial hholds henv, ⟨htracks.live, htracks.gone⟩⟩
  exact ⟨key.1, key.2 hcond⟩

theorem known_init (w : P.World) : Known (Config.init w : P.Config) :=
  ⟨fun _ _ h => (List.not_mem_nil h).elim, fun _ _ h => (List.not_mem_nil h).elim⟩

/-- Before anything was started nobody stands anywhere. -/
theorem tracks_init (w : P.World) : D.Tracks (Config.init w) (fun _ => none) :=
  ⟨fun pid _ hp => absurd (proc_lt hp) (Nat.not_lt_zero pid), fun _ _ => rfl⟩

/-- **Soundness.** When every entry point conforms, an inductive invariant holds
at the end of every run whose events all satisfied `cond`, for phases from which
every live process conforms. -/
theorem sound (hD : D.Obeyed) {cond : P.History → P.Event → Prop}
    {Holds : P.World → P.History → D.Phases → Prop} (hI : D.Inductive cond Holds)
    {w : P.World} (hinit : Holds w [] (fun _ => none)) {as : List P.Action} {c : P.Config}
    (hrun : P.run (Config.init w) as = some c) (hcond : Throughout cond c.past) :
    ∃ phases, Holds c.world c.past phases ∧ D.Tracks c phases :=
  (sound_from hD hI (known_init w) hinit (tracks_init w) hrun hcond).2

end Discipline

end Effects
