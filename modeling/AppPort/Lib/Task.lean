import Mathlib.Data.Set.Basic

/-!
# Tasks — asynchronous functions as trees of calls

An asynchronous function of an effectful language awaits calls whose answers it
does not choose: a store read, a clock, a remote decision. `Task S α` is such a
function as data. It is either *settled* with a value or an error, or it awaits
one call of the signature `S` and says how it goes on for every answer, a
rejection of the call included.

The tree is what makes an interleaving statable: between two calls of one task,
other tasks may take any number of steps, so a pool of tasks (`Lib/Pool.lean`)
is a list of residual trees and one step of it answers one awaited call.

`settleWith` is the one sequencing operation; `bind` (go on with the value),
`tryCatch` (go on with the error) and `attempt` (go on with either) are its three
uses, so every rule about sequencing is proved once, about `settleWith`.
-/

namespace Effects

/-- The calls a task may await: their names, what each answers with, and the
error a rejected call (or a throwing task) carries. -/
structure Sig where
  /-- The calls. -/
  Op : Type
  /-- What a call answers with when it resolves. -/
  Out : Op → Type
  /-- What a rejected call, or a task that throws, carries. -/
  Err : Type

/-- An asynchronous function: settled, or awaiting a call. -/
inductive Task (S : Sig) (α : Type) : Type
  | settled (r : Except S.Err α)
  | await (op : S.Op) (k : Except S.Err (S.Out op) → Task S α)

namespace Task

variable {S : Sig} {α β γ : Type}

/-- Go on with the way `t` settles, whether it resolves or rejects. -/
def settleWith : Task S α → (Except S.Err α → Task S β) → Task S β
  | .settled r, f => f r
  | .await op k, f => .await op (fun r => (k r).settleWith f)

/-- Await one call. -/
def perform (op : S.Op) : Task S (S.Out op) :=
  .await op .settled

/-- Go on with the value; an error passes through. -/
def bind (t : Task S α) (f : α → Task S β) : Task S β :=
  t.settleWith fun
    | .ok a => f a
    | .error e => .settled (.error e)

/-- Go on with the error; a value passes through (`try … catch`). -/
def tryCatch (t : Task S α) (h : S.Err → Task S α) : Task S α :=
  t.settleWith fun
    | .ok a => .settled (.ok a)
    | .error e => h e

/-- Observe how `t` settles, without throwing (`.then(f, g)`). -/
def attempt (t : Task S α) : Task S (Except S.Err α) :=
  t.settleWith fun r => .settled (.ok r)

/-- Run `t` for its effects and ignore how it settles (`.catch(() => undefined)`). -/
def ignore (t : Task S α) : Task S Unit :=
  t.settleWith fun _ => .settled (.ok ())

instance : Monad (Task S) where
  pure a := .settled (.ok a)
  bind := Task.bind

instance : MonadExceptOf S.Err (Task S) where
  throw e := .settled (.error e)
  tryCatch := Task.tryCatch

/-- Lift a computation that only may throw. -/
def ofExcept (r : Except S.Err α) : Task S α := .settled r

/-- Run one task for each element, in order (`for (const x of xs) await …`). -/
def forEach (f : α → Task S Unit) : List α → Task S Unit
  | [] => .settled (.ok ())
  | x :: xs => (f x).bind fun _ => forEach f xs

/-! ## How sequencing reduces -/

@[simp] theorem pure_eq (a : α) : (pure a : Task S α) = .settled (.ok a) := rfl

@[simp] theorem throw_eq (e : S.Err) : (throw e : Task S α) = .settled (.error e) := rfl

@[simp] theorem bind_eq (t : Task S α) (f : α → Task S β) : (t >>= f) = t.bind f := rfl

@[simp] theorem tryCatch_eq (t : Task S α) (h : S.Err → Task S α) :
    MonadExcept.tryCatch t h = t.tryCatch h := rfl

@[simp] theorem settled_settleWith (r : Except S.Err α) (f : Except S.Err α → Task S β) :
    (Task.settled r).settleWith f = f r := rfl

@[simp] theorem await_settleWith (op : S.Op) (k : Except S.Err (S.Out op) → Task S α)
    (f : Except S.Err α → Task S β) :
    (Task.await op k).settleWith f = .await op (fun r => (k r).settleWith f) := rfl

/-- Sequencing is associative, so a residual of a composed task is a composed
residual. -/
theorem settleWith_assoc (t : Task S α) (f : Except S.Err α → Task S β)
    (g : Except S.Err β → Task S γ) :
    (t.settleWith f).settleWith g = t.settleWith (fun r => (f r).settleWith g) := by
  induction t with
  | settled r => rfl
  | await op k ih =>
    simp only [await_settleWith]
    congr 1
    funext r
    exact ih r

theorem bind_assoc (t : Task S α) (f : α → Task S β) (g : β → Task S γ) :
    (t.bind f).bind g = t.bind fun a => (f a).bind g := by
  induction t with
  | settled r => cases r <;> rfl
  | await op k ih =>
    show Task.await op (fun r => ((k r).bind f).bind g) = .await op fun r => (k r).bind _
    congr 1
    funext r
    exact ih r

/-! ## The calls a task may make

`Uses` is a property of the tree alone: whatever the answers, every call the task
awaits is one of `calls`. It is how a service is shown never to touch a store it
does not own. -/

/-- Every call of the tree, on every path, belongs to `calls`. -/
def Uses (calls : Set S.Op) : Task S α → Prop
  | .settled _ => True
  | .await op k => op ∈ calls ∧ ∀ r, Uses calls (k r)

@[simp] theorem uses_settled (calls : Set S.Op) (r : Except S.Err α) :
    (Task.settled r : Task S α).Uses calls := trivial

/-- Every task makes calls. -/
theorem uses_univ : (t : Task S α) → t.Uses Set.univ
  | .settled _ => trivial
  | .await _ k => ⟨trivial, fun r => uses_univ (k r)⟩

theorem Uses.mono {calls calls' : Set S.Op} (h : calls ⊆ calls') :
    {t : Task S α} → t.Uses calls → t.Uses calls'
  | .settled _, _ => trivial
  | .await _ _, ht => ⟨h ht.1, fun r => (ht.2 r).mono h⟩

theorem uses_perform {calls : Set S.Op} {op : S.Op} (h : op ∈ calls) :
    (perform op).Uses calls := ⟨h, fun _ => trivial⟩

/-- A sequence makes the calls of its first half and of every continuation. -/
theorem Uses.settleWith {calls : Set S.Op} :
    {t : Task S α} → {f : Except S.Err α → Task S β} →
    t.Uses calls → (∀ r, (f r).Uses calls) → (t.settleWith f).Uses calls
  | .settled r, _, _, hf => hf r
  | .await _ _, _, ht, hf => ⟨ht.1, fun r => (ht.2 r).settleWith hf⟩

theorem Uses.bind {calls : Set S.Op} {t : Task S α} {f : α → Task S β}
    (ht : t.Uses calls) (hf : ∀ a, (f a).Uses calls) : (t.bind f).Uses calls := by
  refine ht.settleWith fun r => ?_
  cases r with
  | ok a => exact hf a
  | error e => trivial

theorem Uses.tryCatch {calls : Set S.Op} {t : Task S α} {h : S.Err → Task S α}
    (ht : t.Uses calls) (hh : ∀ e, (h e).Uses calls) : (t.tryCatch h).Uses calls := by
  refine ht.settleWith fun r => ?_
  cases r with
  | ok a => trivial
  | error e => exact hh e

theorem Uses.attempt {calls : Set S.Op} {t : Task S α} (ht : t.Uses calls) :
    t.attempt.Uses calls := ht.settleWith fun _ => trivial

theorem Uses.ignore {calls : Set S.Op} {t : Task S α} (ht : t.Uses calls) :
    t.ignore.Uses calls := ht.settleWith fun _ => trivial

theorem Uses.forEach {calls : Set S.Op} {f : α → Task S Unit} :
    (xs : List α) → (∀ a ∈ xs, (f a).Uses calls) → (Task.forEach f xs).Uses calls
  | [], _ => trivial
  | x :: xs, hf => (hf x List.mem_cons_self).bind fun _ =>
    Uses.forEach xs fun a ha => hf a (List.mem_cons_of_mem x ha)

/-- A check that may throw, and what follows when it passes. -/
theorem Uses.ofExcept_bind {calls : Set S.Op} {r : Except S.Err α} {f : α → Task S β}
    (hf : ∀ a, r = .ok a → (f a).Uses calls) : ((ofExcept r).bind f).Uses calls := by
  cases r with
  | ok a => exact hf a rfl
  | error e => trivial

/-! ## What a task may resolve to

`Yields` is the other property of the tree alone: every value the task can resolve
to satisfies `Q`. Together with it, `Uses` follows a value into the calls that are
made with it. -/

/-- Every value on every path satisfies `Q`. -/
def Yields (Q : α → Prop) : Task S α → Prop
  | .settled (.ok a) => Q a
  | .settled (.error _) => True
  | .await _ k => ∀ r, Yields Q (k r)

theorem yields_ofExcept {Q : α → Prop} {r : Except S.Err α} (h : ∀ a, r = .ok a → Q a) :
    (ofExcept r : Task S α).Yields Q := by
  cases r with
  | ok a => exact h a rfl
  | error e => trivial

theorem Yields.mono {Q Q' : α → Prop} (h : ∀ a, Q a → Q' a) : {t : Task S α} → t.Yields Q →
    t.Yields Q'
  | .settled (.ok a), ht => h a ht
  | .settled (.error _), _ => trivial
  | .await _ _, ht => fun r => (ht r).mono h

theorem Yields.settleWith {Q : α → Prop} {R : β → Prop} :
    {t : Task S α} → {f : Except S.Err α → Task S β} → t.Yields Q →
    (∀ a, Q a → (f (.ok a)).Yields R) → (∀ e, (f (.error e)).Yields R) →
    (t.settleWith f).Yields R
  | .settled (.ok a), _, ht, hok, _ => hok a ht
  | .settled (.error e), _, _, _, herr => herr e
  | .await _ _, _, ht, hok, herr => fun r => (ht r).settleWith hok herr

theorem Yields.bind {Q : α → Prop} {R : β → Prop} {t : Task S α} {f : α → Task S β}
    (ht : t.Yields Q) (hf : ∀ a, Q a → (f a).Yields R) : (t.bind f).Yields R :=
  ht.settleWith hf fun _ => trivial

/-- What is known of a value is known when it is only observed. -/
theorem Yields.attempt {Q : α → Prop} {t : Task S α} (ht : t.Yields Q) :
    t.attempt.Yields fun r => ∀ a, r = .ok a → Q a := by
  refine ht.settleWith (fun a ha => ?_) (fun e => ?_)
  · intro b hb
    obtain rfl := Except.ok.inj hb
    exact ha
  · intro b hb
    cases hb

/-- Nothing is asked of a value. -/
theorem yields_true : (t : Task S α) → t.Yields fun _ => True
  | .settled (.ok _) => trivial
  | .settled (.error _) => trivial
  | .await _ k => fun r => yields_true (k r)

/-- Go on with a value whose property is known, whatever it is. -/
theorem Yields.of_bind {R : β → Prop} {t : Task S α} {f : α → Task S β}
    (hf : ∀ a, (f a).Yields R) : (t.bind f).Yields R :=
  (yields_true t).bind fun a _ => hf a

/-- A sequence makes the calls of its first half, and of every continuation of a value
the first half can resolve to. -/
theorem Uses.bind_yields {calls : Set S.Op} {Q : α → Prop} :
    {t : Task S α} → {f : α → Task S β} → t.Uses calls → t.Yields Q →
    (∀ a, Q a → (f a).Uses calls) → (t.bind f).Uses calls
  | .settled (.ok a), _, _, hy, hf => hf a hy
  | .settled (.error _), _, _, _, _ => trivial
  | .await _ _, _, hu, hy, hf => ⟨hu.1, fun r => (hu.2 r).bind_yields (hy r) hf⟩

/-! ## What a task does resolve to

`Resolves` is the existential twin of `Yields`: some answers lead there. -/

/-- The task settles so, for some answers of its calls. -/
def Resolves : Task S α → Except S.Err α → Prop
  | .settled r, r' => r = r'
  | .await _ k, r' => ∃ r, Resolves (k r) r'

theorem Resolves.settleWith {r : Except S.Err α} {r' : Except S.Err β} :
    {t : Task S α} → {f : Except S.Err α → Task S β} → t.Resolves r → (f r).Resolves r' →
    (t.settleWith f).Resolves r'
  | .settled _, _, ht, hf => by
    obtain rfl := ht
    exact hf
  | .await _ _, _, ⟨answer, ht⟩, hf => ⟨answer, ht.settleWith hf⟩

theorem Resolves.bind {t : Task S α} {f : α → Task S β} {a : α} {r : Except S.Err β}
    (ht : t.Resolves (.ok a)) (hf : (f a).Resolves r) : (t.bind f).Resolves r :=
  ht.settleWith hf

theorem Resolves.exists_bind {t : Task S α} {f : α → Task S β} {a : α} {P : β → Prop}
    (ht : t.Resolves (.ok a)) (hf : ∃ b, (f a).Resolves (.ok b) ∧ P b) :
    ∃ b, (t.bind f).Resolves (.ok b) ∧ P b := by
  obtain ⟨b, hb, hP⟩ := hf
  exact ⟨b, ht.bind hb, hP⟩

/-- Await one call, and go on with an answer. -/
theorem Resolves.answered {op : S.Op} {f : S.Out op → Task S β} {r : Except S.Err β}
    (answer : S.Out op) (hf : (f answer).Resolves r) : ((perform op).bind f).Resolves r :=
  ⟨.ok answer, hf⟩

theorem Resolves.exists_answered {op : S.Op} {f : S.Out op → Task S β} {P : β → Prop}
    (answer : S.Out op) (hf : ∃ b, (f answer).Resolves (.ok b) ∧ P b) :
    ∃ b, ((perform op).bind f).Resolves (.ok b) ∧ P b := by
  obtain ⟨b, hb, hP⟩ := hf
  exact ⟨b, .answered answer hb, hP⟩

theorem Resolves.bind_error {t : Task S α} {f : α → Task S β} {e : S.Err}
    (ht : t.Resolves (.error e)) : (t.bind f).Resolves (.error e) :=
  ht.settleWith rfl

/-- However a task settles, it is observed to. -/
theorem Resolves.attempt {t : Task S α} {r : Except S.Err α} (ht : t.Resolves r) :
    t.attempt.Resolves (.ok r) :=
  ht.settleWith rfl

/-- What holds of every value holds of one the task resolves to. -/
theorem Yields.resolved {Q : α → Prop} {a : α} : {t : Task S α} → t.Yields Q →
    t.Resolves (.ok a) → Q a
  | .settled (.ok _), hy, hr => by
    obtain rfl := Except.ok.inj hr
    exact hy
  | .settled (.error _), _, hr => nomatch hr
  | .await _ _, hy, ⟨answer, hr⟩ => (hy answer).resolved hr

end Task

end Effects
