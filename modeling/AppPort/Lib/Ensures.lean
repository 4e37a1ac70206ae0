import AppPort.Lib.Task

/-!
# What a task ensures

A task between two worlds. A `Setting` says how its calls are answered and what others
may do to the world between two of them; `Ensures` is what holds of every way the task
can then settle, and of the world it leaves. It is the rely-guarantee reading of a task
on its own, where `Discipline` is the one inside a pool: no history, and the answer of
every call at hand.

`Keeps` also says how every call is made, in the world it is made in, so it speaks of
tasks that never settle too. `after` follows one way a task can go, which is how a task
is shown not to ensure something.

The rules follow the sequencing operations of `Lib/Task.lean`.
-/

namespace Effects

/-- How calls are answered, and what may happen before one is. -/
structure Setting (S : Sig) (W : Type) where
  /-- In this world the call may be answered so, and leave that world. -/
  answers : (op : S.Op) → W → Except S.Err (S.Out op) → W → Prop
  /-- What others may do between two calls. -/
  between : W → W → Prop

namespace Task

variable {S : Sig} {W α β : Type} {E : Setting S W}

/-- However the task goes from this world, it settles with `Q`. -/
def Ensures (E : Setting S W) : Task S α → W → (Except S.Err α → W → Prop) → Prop
  | .settled r, w, Q => Q r w
  | .await op k, w, Q => ∀ w₁ res w₂, E.between w w₁ → E.answers op w₁ res w₂ →
      Ensures E (k res) w₂ Q

@[simp] theorem ensures_settled (r : Except S.Err α) (w : W) (Q : Except S.Err α → W → Prop) :
    (settled r : Task S α).Ensures E w Q ↔ Q r w := Iff.rfl

/-- Weaken what is ensured. -/
theorem Ensures.mono {Q Q' : Except S.Err α → W → Prop} (h : ∀ r w, Q r w → Q' r w) :
    {t : Task S α} → {w : W} → t.Ensures E w Q → t.Ensures E w Q'
  | .settled r, w, hq => h r w hq
  | .await _ _, _, ht => fun w₁ res w₂ hb ha => (ht w₁ res w₂ hb ha).mono h

/-- **The sequencing rule.** -/
theorem Ensures.settleWith {Q : Except S.Err α → W → Prop} {R : Except S.Err β → W → Prop}
    {f : Except S.Err α → Task S β} (hf : ∀ r w, Q r w → (f r).Ensures E w R) :
    {t : Task S α} → {w : W} → t.Ensures E w Q → (t.settleWith f).Ensures E w R
  | .settled r, w, hq => hf r w hq
  | .await _ _, _, ht => fun w₁ res w₂ hb ha => (ht w₁ res w₂ hb ha).settleWith hf

theorem Ensures.bind {Q : Except S.Err α → W → Prop} {R : Except S.Err β → W → Prop}
    {t : Task S α} {f : α → Task S β} {w : W} (ht : t.Ensures E w Q)
    (hok : ∀ a w, Q (.ok a) w → (f a).Ensures E w R)
    (herr : ∀ e w, Q (.error e) w → R (.error e) w) : (t.bind f).Ensures E w R := by
  refine ht.settleWith fun r w hq => ?_
  cases r with
  | ok a => exact hok a w hq
  | error e => exact herr e w hq

theorem Ensures.tryCatch {Q R : Except S.Err α → W → Prop} {t : Task S α}
    {h : S.Err → Task S α} {w : W} (ht : t.Ensures E w Q)
    (hok : ∀ a w, Q (.ok a) w → R (.ok a) w)
    (herr : ∀ e w, Q (.error e) w → (h e).Ensures E w R) : (t.tryCatch h).Ensures E w R := by
  refine ht.settleWith fun r w hq => ?_
  cases r with
  | ok a => exact hok a w hq
  | error e => exact herr e w hq

/-- A task that is observed hands on how it settled. -/
theorem Ensures.attempt {Q : Except S.Err α → W → Prop} {t : Task S α} {w : W}
    (ht : t.Ensures E w Q) : t.attempt.Ensures E w fun r w' => ∃ r', r = .ok r' ∧ Q r' w' := by
  apply ht.settleWith
  intro r w' hq
  show ∃ r', Except.ok r = .ok r' ∧ Q r' w'
  exact ⟨r, rfl, hq⟩

/-- A task whose way of settling is ignored resolves. -/
theorem Ensures.ignore {Q : W → Prop} {t : Task S α} {w : W}
    (ht : t.Ensures E w fun _ w' => Q w') : t.ignore.Ensures E w fun r w' => r = .ok () ∧ Q w' := by
  apply ht.settleWith
  intro r w' hq
  show Except.ok () = .ok () ∧ Q w'
  exact ⟨rfl, hq⟩

/-- One call. -/
theorem ensures_perform {op : S.Op} {w : W} {Q : Except S.Err (S.Out op) → W → Prop}
    (h : ∀ w₁ res w₂, E.between w w₁ → E.answers op w₁ res w₂ → Q res w₂) :
    (perform op).Ensures E w Q := h

/-- A check that may throw. -/
theorem ensures_ofExcept (r : Except S.Err α) (w : W) :
    (ofExcept r).Ensures E w fun r' w' => r' = r ∧ w' = w := ⟨rfl, rfl⟩

/-- Nothing is asked. -/
theorem ensures_true : (t : Task S α) → (w : W) → t.Ensures E w fun _ _ => True
  | .settled _, _ => trivial
  | .await _ k, _ => fun _ res w₂ _ _ => ensures_true (k res) w₂

/-- What every value of the task satisfies, the one it settles with satisfies. -/
theorem Ensures.yields {Q : Except S.Err α → W → Prop} {R : α → Prop} :
    {t : Task S α} → {w : W} → t.Ensures E w Q → t.Yields R →
    t.Ensures E w fun r w' => Q r w' ∧ ∀ a, r = .ok a → R a
  | .settled (.ok a), _, hq, hy => ⟨hq, fun b hb => by
      obtain rfl := Except.ok.inj hb
      exact hy⟩
  | .settled (.error _), _, hq, _ => ⟨hq, fun _ hb => nomatch hb⟩
  | .await _ _, _, ht, hy => fun w₁ res w₂ hb ha => (ht w₁ res w₂ hb ha).yields (hy res)

/-- **The frame rule.** What the calls of the task and the others leave alone stands at
the end. -/
theorem Ensures.of_uses {calls : Set S.Op} {I : W → Prop}
    (hcalls : ∀ op ∈ calls, ∀ w res w', I w → E.answers op w res w' → I w')
    (hbetween : ∀ w w', I w → E.between w w' → I w') :
    {t : Task S α} → {w : W} → t.Uses calls → I w → t.Ensures E w fun _ w' => I w'
  | .settled _, _, _, hw => hw
  | .await op _, _, hu, hw => fun w₁ res w₂ hb ha =>
    of_uses hcalls hbetween (hu.2 res) (hcalls op hu.1 w₁ res w₂ (hbetween _ w₁ hw hb) ha)

/-- The task may go so from this world that it settles with `r` in that one. -/
def Settles (E : Setting S W) : Task S α → W → Except S.Err α → W → Prop
  | .settled r, w, r', w' => r' = r ∧ w' = w
  | .await op k, w, r', w' => ∃ w₁ res w₂, E.between w w₁ ∧ E.answers op w₁ res w₂ ∧
      Settles E (k res) w₂ r' w'

/-- What is ensured holds of every way a task may go. -/
theorem Ensures.settles {Q : Except S.Err α → W → Prop} {r : Except S.Err α} {w' : W} :
    {t : Task S α} → {w : W} → t.Ensures E w Q → t.Settles E w r w' → Q r w'
  | .settled _, _, hq, ⟨hr, hw⟩ => by
    subst hr hw
    exact hq
  | .await _ _, _, ht, ⟨w₁, res, w₂, hb, ha, hrest⟩ => (ht w₁ res w₂ hb ha).settles hrest

/-- One task after the other. -/
theorem Settles.bind {a : α} {r : Except S.Err β} {w' w'' : W} {f : α → Task S β} :
    {t : Task S α} → {w : W} → t.Settles E w (.ok a) w' → (f a).Settles E w' r w'' →
    (t.bind f).Settles E w r w''
  | .settled _, _, ⟨hr, hw⟩, hf => by
    subst hr hw
    exact hf
  | .await _ _, _, ⟨w₁, res, w₂, hb, ha, hrest⟩, hf => ⟨w₁, res, w₂, hb, ha, hrest.bind hf⟩

/-- A sequence went as its first half, and then on from the value; or its first half threw. -/
theorem Settles.of_bind {r : Except S.Err β} {w'' : W} {f : α → Task S β} :
    {t : Task S α} → {w : W} → (t.bind f).Settles E w r w'' →
    (∃ a w', t.Settles E w (.ok a) w' ∧ (f a).Settles E w' r w'') ∨
      ∃ e, r = .error e ∧ t.Settles E w (.error e) w''
  | .settled (.ok a), w, h => .inl ⟨a, w, ⟨rfl, rfl⟩, h⟩
  | .settled (.error e), _, ⟨hr, hw⟩ => .inr ⟨e, hr, rfl, hw⟩
  | .await op k, w, ⟨w₁, res, w₂, hb, ha, hrest⟩ => by
    rcases Settles.of_bind hrest with ⟨a, w', ht, hf⟩ | ⟨e, hr, ht⟩
    · exact .inl ⟨a, w', ⟨w₁, res, w₂, hb, ha, ht⟩, hf⟩
    · exact .inr ⟨e, hr, w₁, res, w₂, hb, ha, ht⟩

/-- An error of the first half is the sequence's. -/
theorem Settles.bind_error {e : S.Err} {w' : W} {f : α → Task S β} :
    {t : Task S α} → {w : W} → t.Settles E w (.error e) w' →
    (t.bind f).Settles E w (.error e) w'
  | .settled _, _, ⟨hr, hw⟩ => by
    subst hr hw
    exact ⟨rfl, rfl⟩
  | .await _ _, _, ⟨w₁, res, w₂, hb, ha, hrest⟩ => ⟨w₁, res, w₂, hb, ha, hrest.bind_error⟩

/-! ## The calls on the way -/

/-- However the task goes from this world, every call it makes satisfies `C` in the world
it is made in, and it settles with `Q`. -/
def Keeps (E : Setting S W) (C : S.Op → W → Prop) : Task S α → W →
    (Except S.Err α → W → Prop) → Prop
  | .settled r, w, Q => Q r w
  | .await op k, w, Q => ∀ w₁, E.between w w₁ →
      C op w₁ ∧ ∀ res w₂, E.answers op w₁ res w₂ → Keeps E C (k res) w₂ Q

section keeps

variable {C : S.Op → W → Prop}

theorem Keeps.mono {Q Q' : Except S.Err α → W → Prop} (h : ∀ r w, Q r w → Q' r w) :
    {t : Task S α} → {w : W} → t.Keeps E C w Q → t.Keeps E C w Q'
  | .settled r, w, hq => h r w hq
  | .await _ _, _, ht => fun w₁ hb => ⟨(ht w₁ hb).1, fun res w₂ ha => ((ht w₁ hb).2 res w₂ ha).mono h⟩

/-- **The sequencing rule.** -/
theorem Keeps.settleWith {Q : Except S.Err α → W → Prop} {R : Except S.Err β → W → Prop}
    {f : Except S.Err α → Task S β} (hf : ∀ r w, Q r w → (f r).Keeps E C w R) :
    {t : Task S α} → {w : W} → t.Keeps E C w Q → (t.settleWith f).Keeps E C w R
  | .settled r, w, hq => hf r w hq
  | .await _ _, _, ht => fun w₁ hb =>
    ⟨(ht w₁ hb).1, fun res w₂ ha => ((ht w₁ hb).2 res w₂ ha).settleWith hf⟩

theorem Keeps.bind {Q : Except S.Err α → W → Prop} {R : Except S.Err β → W → Prop}
    {t : Task S α} {f : α → Task S β} {w : W} (ht : t.Keeps E C w Q)
    (hok : ∀ a w, Q (.ok a) w → (f a).Keeps E C w R)
    (herr : ∀ e w, Q (.error e) w → R (.error e) w) : (t.bind f).Keeps E C w R := by
  refine ht.settleWith fun r w hq => ?_
  cases r with
  | ok a => exact hok a w hq
  | error e => exact herr e w hq

theorem Keeps.tryCatch {Q R : Except S.Err α → W → Prop} {t : Task S α}
    {h : S.Err → Task S α} {w : W} (ht : t.Keeps E C w Q)
    (hok : ∀ a w, Q (.ok a) w → R (.ok a) w)
    (herr : ∀ e w, Q (.error e) w → (h e).Keeps E C w R) : (t.tryCatch h).Keeps E C w R := by
  refine ht.settleWith fun r w hq => ?_
  cases r with
  | ok a => exact hok a w hq
  | error e => exact herr e w hq

/-- One call. -/
theorem keeps_perform {op : S.Op} {w : W} {Q : Except S.Err (S.Out op) → W → Prop}
    (h : ∀ w₁, E.between w w₁ → C op w₁ ∧ ∀ res w₂, E.answers op w₁ res w₂ → Q res w₂) :
    (perform op).Keeps E C w Q := h

/-- A check that may throw. -/
theorem keeps_ofExcept (r : Except S.Err α) (w : W) :
    (ofExcept r).Keeps E C w fun r' w' => r' = r ∧ w' = w := ⟨rfl, rfl⟩

/-- **The frame rule.** A task whose calls leave `I` alone, and may be made wherever `I`
holds, keeps it. -/
theorem Keeps.of_uses {calls : Set S.Op} {I : W → Prop}
    (hmade : ∀ op ∈ calls, ∀ w, I w → C op w)
    (hcalls : ∀ op ∈ calls, ∀ w res w', I w → E.answers op w res w' → I w')
    (hbetween : ∀ w w', I w → E.between w w' → I w') :
    {t : Task S α} → {w : W} → t.Uses calls → I w → t.Keeps E C w fun _ w' => I w'
  | .settled _, _, _, hw => hw
  | .await op _, _, hu, hw => fun w₁ hb =>
    have hw₁ := hbetween _ w₁ hw hb
    ⟨hmade op hu.1 w₁ hw₁, fun res w₂ ha =>
      of_uses hmade hcalls hbetween (hu.2 res) (hcalls op hu.1 w₁ res w₂ hw₁ ha)⟩

/-- What is known of the calls is not needed for what is ensured. -/
theorem Keeps.ensures {Q : Except S.Err α → W → Prop} :
    {t : Task S α} → {w : W} → t.Keeps E C w Q → t.Ensures E w Q
  | .settled _, _, hq => hq
  | .await _ _, _, ht => fun w₁ res w₂ hb ha => ((ht w₁ hb).2 res w₂ ha).ensures

/-- What is ensured besides. -/
theorem Keeps.and_ensures {Q R : Except S.Err α → W → Prop} :
    {t : Task S α} → {w : W} → t.Keeps E C w Q → t.Ensures E w R →
    t.Keeps E C w fun r w' => Q r w' ∧ R r w'
  | .settled _, _, hq, hr => ⟨hq, hr⟩
  | .await _ _, _, ht, hr => fun w₁ hb =>
    ⟨(ht w₁ hb).1, fun res w₂ ha => ((ht w₁ hb).2 res w₂ ha).and_ensures (hr w₁ res w₂ hb ha)⟩

end keeps

/-! ## One way to go -/

variable {Choice : Type}

/-- What is left of the task, and the world, once these choices have answered its first
calls; `none` where one of them does not fit its call. -/
def after (exec : (op : S.Op) → Choice → W → Option (Except S.Err (S.Out op) × W)) :
    List Choice → Task S α → W → Option (Task S α × W)
  | [], t, w => some (t, w)
  | _ :: _, .settled _, _ => none
  | c :: cs, .await op k, w =>
    match exec op c w with
    | some (res, w') => after exec cs (k res) w'
    | none => none

/-- What a task keeps, it keeps on this way. -/
theorem Keeps.after {C : S.Op → W → Prop} {Q : Except S.Err α → W → Prop}
    {exec : (op : S.Op) → Choice → W → Option (Except S.Err (S.Out op) × W)}
    (hexec : ∀ op c w res w', exec op c w = some (res, w') → E.answers op w res w')
    (hbetween : ∀ w, E.between w w) :
    (cs : List Choice) → {t t' : Task S α} → {w w' : W} → t.Keeps E C w Q →
    Task.after exec cs t w = some (t', w') → t'.Keeps E C w' Q
  | [], _, _, _, _, ht, h => by
    cases h
    exact ht
  | c :: cs, .settled _, _, _, _, _, h => by
    cases h
  | c :: cs, .await op k, _, w, _, ht, h => by
    simp only [Task.after] at h
    cases hop : exec op c w with
    | none =>
      rw [hop] at h
      cases h
    | some r =>
      rw [hop] at h
      have hrest := (ht w (hbetween w)).2 r.1 r.2 (hexec op c w r.1 r.2 hop)
      exact hrest.after hexec hbetween cs h

/-- The task has settled so. -/
def settledTo {α : Type} (outcome : Task S α × W) : Option (Except S.Err α × W) :=
  match outcome.1 with
  | .settled r => some (r, outcome.2)
  | .await _ _ => none

/-- The way these choices take is one the task may go. -/
theorem settles_of_settledTo
    {exec : (op : S.Op) → Choice → W → Option (Except S.Err (S.Out op) × W)}
    (hexec : ∀ op c w res w', exec op c w = some (res, w') → E.answers op w res w')
    (hbetween : ∀ w, E.between w w) {r : Except S.Err α} {w' : W} :
    {cs : List Choice} → {t : Task S α} → {w : W} →
    (Task.after exec cs t w).bind settledTo = some (r, w') → Settles E t w r w'
  | [], .settled r', w, h => by
    cases h
    exact ⟨rfl, rfl⟩
  | [], .await _ _, _, h => by
    cases h
  | _ :: _, .settled _, _, h => by
    cases h
  | c :: cs, .await op k, w, h => by
    simp only [Task.after] at h
    cases hop : exec op c w with
    | none =>
      rw [hop] at h
      cases h
    | some answered =>
      rw [hop] at h
      have hrest := settles_of_settledTo hexec hbetween h
      exact ⟨w, answered.1, answered.2, hbetween w, hexec op c w _ _ hop, hrest⟩

end Task

end Effects
