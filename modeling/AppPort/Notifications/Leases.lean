import AppPort.Notifications.Attempts

/-!
# Calls of one delivery's channel are a lease apart

A claim is fenced by the version it was read with, so of two attempts the later knows the
record of the earlier. What keeps their *calls* apart is the lease, and `attemptDelivery`
tests it for pending deliveries only, and from the time of the claim. `attemptsOver` says
what has to hold for every claim, and `AttemptGone` what follows for the attempts it
supersedes; the calls of attempts that are not gone are those of the record that is
stored.
-/

namespace AppPort

open Effects Effects.Platform

variable {τ : Type}

/-- The laws of the clock: what lies `ms` before a time has that time at most `ms` after it. -/
class LawfulTimestamp (τ : Type) [Timestamp τ] : Prop where
  after_of_before : ∀ {t s cutoff : τ} {ms : Nat}, Timestamp.before t ms = some cutoff →
    s ≤ cutoff → ∃ e, Timestamp.after s ms = some e ∧ e ≤ t

instance : LawfulTimestamp Nat where
  after_of_before {t s cutoff ms} h hle := by
    refine ⟨s + ms, rfl, ?_⟩
    simp only [Timestamp.before] at h
    split at h
    · obtain rfl := Option.some.inj h
      have hle' : s ≤ t - ms := hle
      show s + ms ≤ t
      omega
    · cases h

variable [Timestamp τ]

/-! ## Attempts and calls -/

/-- The version of a delivery that a record is. -/
def NotificationDelivery.record (delivery : NotificationDelivery τ) : String × Nat :=
  (delivery.id, delivery.version)

/-- An attempt: who made it, and the record since its claim. -/
abbrev DeliveryAttempt (τ : Type) := Nat × NotificationDelivery τ

/-- A moment of a call of a channel. -/
structure ChannelMoment (τ : Type) where
  pid : Nat
  delivery : NotificationDelivery τ
  time : τ

/-- The moment is one of the attempt's call. -/
def ChannelMoment.isOf (x : ChannelMoment τ) (a : DeliveryAttempt τ) : Bool :=
  x.pid == a.1 && x.delivery.record == a.2.record

/-- The attempt an event begins: its process learned that its claim went through. -/
def attemptBy : (deliveryPlatform τ).Event → Option (DeliveryAttempt τ)
  | .ran pid ⟨_, .notifications (.updateDelivery _ _ _ u), .ok (some claimed), _, _⟩ =>
    if u.attemptCount.isSome then some (pid, claimed) else none
  | _ => none

/-- The channel is invoked. -/
def callBy : (deliveryPlatform τ).Event → Option (ChannelMoment τ)
  | .ran pid ⟨_, .host (.startChannel _ delivery), _, before, _⟩ => some ⟨pid, delivery, before.clock⟩
  | _ => none

/-- The channel settles. -/
def answerBy : (deliveryPlatform τ).Event → Option (ChannelMoment τ)
  | .ran pid ⟨_, .host (.awaitChannel delivery), _, before, _⟩ => some ⟨pid, delivery, before.clock⟩
  | _ => none

/-- A process writes, or tries to write, an outcome to this record. -/
def finishBy : (deliveryPlatform τ).Event → Option (Nat × (String × Nat))
  | .ran pid ⟨_, .notifications (.updateDelivery _ id v u), _, _, _⟩ =>
    if u.attemptCount.isNone then some (pid, (id, v)) else none
  | _ => none

def attemptsMade (past : (deliveryPlatform τ).History) : List (DeliveryAttempt τ) :=
  past.filterMap attemptBy

def callsMade (past : (deliveryPlatform τ).History) : List (ChannelMoment τ) :=
  past.filterMap callBy

def answersGiven (past : (deliveryPlatform τ).History) : List (ChannelMoment τ) :=
  past.filterMap answerBy

/-- The outcome of the attempt was written, or lost. -/
def isFinished (past : (deliveryPlatform τ).History) (a : DeliveryAttempt τ) : Bool :=
  past.any fun e => finishBy e == some (a.1, a.2.record)

def isStopped (past : (deliveryPlatform τ).History) (pid : Nat) : Bool :=
  past.any fun
    | .stopped q _ => q == pid
    | .ran _ _ => false

/-- The channel invoked by the attempt has settled. -/
def isAnswered (past : (deliveryPlatform τ).History) (a : DeliveryAttempt τ) : Bool :=
  (answersGiven past).any fun x => x.isOf a

/-- The lease of a call that began at `t` is over. -/
def leaseOver (now t : τ) : Bool :=
  match Timestamp.after t ATTEMPT_LEASE_MS with
  | some e => decide (e ≤ now)
  | none => false

/-- The call settled within its lease. -/
def answeredWithin (past : (deliveryPlatform τ).History) (call : ChannelMoment τ) : Bool :=
  (answersGiven past).any fun x =>
    x.isOf (call.pid, call.delivery) && !leaseOver x.time call.time

/-! ## Conditions and guarantees -/

/-- Every call of the attempt satisfies the test, or its process stopped before there was one. -/
def callsAll (past : (deliveryPlatform τ).History) (a : DeliveryAttempt τ)
    (test : ChannelMoment τ → Bool) : Bool :=
  (isStopped past a.1 || (callsMade past).any fun call => call.isOf a) &&
    (callsMade past).all fun call => !call.isOf a || test call

/-- No outcome of the attempt is to come that was settled within the lease. -/
def outcomeLost (past : (deliveryPlatform τ).History) (call : ChannelMoment τ) : Bool :=
  isStopped past call.pid || !answeredWithin past call

/-- The attempt is over: its outcome was written or lost, it stopped before its call, or the
lease of its call is over. -/
def isOver (past : (deliveryPlatform τ).History) (now : τ) (a : DeliveryAttempt τ) : Bool :=
  isFinished past a || callsAll past a fun call => leaseOver now call.time && outcomeLost past call

/-- The attempt's call began at the time its claim recorded. -/
def isPrompt (past : (deliveryPlatform τ).History) (a : DeliveryAttempt τ) : Bool :=
  ((callsMade past).any fun call => call.isOf a) && callsAll past a fun call =>
    decide (a.2.lastAttemptAt = some call.time) && outcomeLost past call

/-- The attempts of other processes on the delivery pass the test. -/
def othersPass (past : (deliveryPlatform τ).History) (pid : Nat) (id : String)
    (test : DeliveryAttempt τ → Bool) : Bool :=
  (attemptsMade past).all fun a => a.1 == pid || a.2.id != id || test a

/-- The process has an attempt on this record that is not finished. -/
def holdsAttempt (past : (deliveryPlatform τ).History) (pid : Nat) (record : String × Nat) : Bool :=
  (attemptsMade past).any fun a => a.1 == pid && a.2.record == record && !isFinished past a

/-- A delivery is claimed, given up or deleted only when the attempts of the others on it are
over, or, where the guards test the lease, began their calls when they claimed. Outcomes
of attempts and retries by hand are free. -/
def attemptsOver (past : (deliveryPlatform τ).History) : (deliveryPlatform τ).Event → Bool
  | .ran pid ⟨_, .notifications (.updateDelivery _ id v u), _, before, _⟩ =>
    (before.notifications.deliveries.get id).all fun stored =>
      stored.version != v || u.maxAttempts.isSome || holdsAttempt past pid (id, v) ||
        othersPass past pid id fun a => isOver past before.clock a ||
          (stored.status == .pending && isPrompt past a)
  | .ran pid ⟨_, .notifications (.deleteDelivery id), _, before, _⟩ =>
    othersPass past pid id (isOver past before.clock)
  | _ => true

/-- No channel is called while another call for the delivery is in flight within its lease. -/
def callsApart (past : (deliveryPlatform τ).History) (e : (deliveryPlatform τ).Event) : Bool :=
  (callBy e).all fun call => (callsMade past).all fun older =>
    older.delivery.id != call.delivery.id || isAnswered past (older.pid, older.delivery) ||
      leaseOver call.time older.time

/-- The delivery is stored as delivered. -/
def storesDelivered (w : World τ) (id : String) : Bool :=
  (w.notifications.deliveries.get id).any fun d => d.status == .delivered

/-- An attempt that was delivered within its lease, and whose write the database takes, is
stored as delivered. -/
def deliveredCounts (past : (deliveryPlatform τ).History) : (deliveryPlatform τ).Event → Bool
  | .ran pid ⟨_, .notifications (.updateDelivery _ id v u), .ok _, _, after⟩ =>
    u.status != some .delivered || (callsMade past).all fun call =>
      !(call.pid == pid && call.delivery.record == (id, v) && answeredWithin past call) ||
        storesDelivered after id
  | _ => true

/-- The event leaves the delivery stored as delivered. -/
def isDoneBy (id : String) : (deliveryPlatform τ).Event → Bool
  | .ran _ step => storesDelivered step.after id
  | .stopped _ _ => false

/-- The channel is not called for a delivery that was stored as delivered. -/
def notAgain (past : (deliveryPlatform τ).History) (e : (deliveryPlatform τ).Event) : Bool :=
  (callBy e).all fun call => !past.any (isDoneBy call.delivery.id)

/-! ## What the events of a step are -/

/-- An attempt begins with a claim that went through. -/
theorem attemptBy_elim {past : (deliveryPlatform τ).History} {pid : Nat} {ph ph' : DeliveryPhase τ}
    {step : (deliveryPlatform τ).Step} {a : DeliveryAttempt τ}
    (ht : DeliveryTaken past pid step ph ph') (h : attemptBy (.ran pid step) = some a) :
    ∃ delivery t tenantId, a = (pid, (attemptClaim delivery t).written delivery) ∧
      ph = .passed delivery t ∧
      step.op = .notifications (.updateDelivery tenantId delivery.id delivery.version
        (attemptClaim delivery t)) ∧
      step.before.notifications.deliveries.get delivery.id = some delivery ∧
      step.after.notifications.deliveries.get delivery.id = some a.2 := by
  obtain ⟨choice, hexec⟩ := ht.exec
  have hsound := ht.sound
  have hnone : ∀ {call : DeliveryCall τ} {tenantId id : String} {v : Nat}
      {u : NotificationDeliveryUpdate τ} {res : Except JsError (Option (NotificationDelivery τ))}
      {before after : World τ}, u.attemptCount = none →
      attemptBy (.ran pid ⟨call, .notifications (.updateDelivery tenantId id v u), res, before,
        after⟩) = none := by
    intro call tenantId id v u res before after hu
    match res with
    | .error e => rfl
    | .ok none => rfl
    | .ok (some claimed) => simp [attemptBy, hu]
  cases ht.next with
  | plain hop =>
    unfold attemptBy at h
    split at h
    · next heq =>
      cases heq
      cases hop
    · cases h
  | get | guard | start | settle | create | erase => cases h
  | reject hu | finish hu =>
    rw [hnone hu.attemptCount] at h
    cases h
  | retry =>
    rw [hnone rfl] at h
    cases h
  | claim =>
    rename_i call tenantId delivery t res before after
    match res with
    | .error e => cases h
    | .ok none => cases h
    | .ok (some claimed) =>
      obtain rfl := Option.some.inj h
      rcases updateDelivery_cases hexec with ⟨-, hnone⟩ | ⟨stored, hget, hv, hw, hres⟩
      · exact absurd rfl (hnone claimed)
      · obtain rfl := hsound.1.current hget hv
        obtain rfl : claimed = (attemptClaim stored t).written stored := by
          rcases hres with hres | ⟨e, hres⟩
          · exact Option.some.inj (Except.ok.inj hres)
          · cases hres
        exact ⟨stored, t, tenantId, rfl, rfl, rfl, hget, by rw [hw]; exact Table.get_put_same ..⟩

theorem callBy_elim {pid : Nat} {ph ph' : DeliveryPhase τ} {step : (deliveryPlatform τ).Step}
    {call : ChannelMoment τ} (hstep : DeliveryStep ph step ph')
    (h : callBy (.ran pid step) = some call) :
    ph = .claimed call.delivery ∧ call = ⟨pid, call.delivery, step.before.clock⟩ := by
  cases hstep with
  | plain hop =>
    unfold callBy at h
    split at h
    · next heq =>
      cases heq
      cases hop
    · cases h
  | start =>
    obtain rfl := Option.some.inj h
    exact ⟨rfl, rfl⟩
  | get | guard | claim | reject | settle | finish | retry | create | erase => cases h

theorem answerBy_elim {pid : Nat} {ph ph' : DeliveryPhase τ} {step : (deliveryPlatform τ).Step}
    {x : ChannelMoment τ} (hstep : DeliveryStep ph step ph')
    (h : answerBy (.ran pid step) = some x) :
    ph = .started x.delivery ∧ x = ⟨pid, x.delivery, step.before.clock⟩ := by
  cases hstep with
  | plain hop =>
    unfold answerBy at h
    split at h
    · next heq =>
      cases heq
      cases hop
    · cases h
  | settle =>
    obtain rfl := Option.some.inj h
    exact ⟨rfl, rfl⟩
  | get | guard | claim | reject | start | finish | retry | create | erase => cases h

/-- An outcome is written by a process that holds the record. -/
theorem finishBy_elim {past : (deliveryPlatform τ).History} {pid : Nat} {ph ph' : DeliveryPhase τ}
    {step : (deliveryPlatform τ).Step} {f : Nat × (String × Nat)}
    (ht : DeliveryTaken past pid step ph ph') (h : finishBy (.ran pid step) = some f) :
    ∃ delivery, f = (pid, delivery.record) ∧ HeldDelivery step.before past delivery ∧
      ((∃ delivered, ph = .answered delivery delivered) ∨ (∃ t, ph = .passed delivery t) ∨
        ph = .read delivery) := by
  have hsound := ht.sound
  cases ht.next with
  | plain hop =>
    unfold finishBy at h
    split at h
    · next heq =>
      cases heq
      cases hop
    · cases h
  | get | guard | start | settle | create | erase => cases h
  | claim => cases h
  | reject hu =>
    simp only [finishBy, hu.attemptCount, Option.isNone_none, if_true] at h
    exact ⟨_, (Option.some.inj h).symm, hsound.1, .inr (.inl ⟨_, rfl⟩)⟩
  | finish hu =>
    simp only [finishBy, hu.attemptCount, Option.isNone_none, if_true] at h
    exact ⟨_, (Option.some.inj h).symm, hsound.1, .inl ⟨_, rfl⟩⟩
  | retry =>
    exact ⟨_, (Option.some.inj h).symm, hsound, .inr (.inr rfl)⟩

/-- A finishing event begins no attempt. -/
theorem attemptBy_of_finishBy {e : (deliveryPlatform τ).Event} {f : Nat × (String × Nat)}
    (h : finishBy e = some f) : attemptBy e = none := by
  unfold finishBy at h
  split at h
  · next pid call tenantId id v u res before after =>
    split at h
    · next hcount =>
      have hu : u.attemptCount = none := by simpa using hcount
      match res with
      | .error _ => rfl
      | .ok none => rfl
      | .ok (some claimed) => simp [attemptBy, hu]
    · cases h
  · cases h

/-! ## Lists of moments -/

theorem mem_filterMap_cons {β : Type} {f : (deliveryPlatform τ).Event → Option β}
    {e : (deliveryPlatform τ).Event} {past : (deliveryPlatform τ).History} {b : β} :
    b ∈ (e :: past).filterMap f ↔ f e = some b ∨ b ∈ past.filterMap f := by
  simp [List.mem_filterMap]

theorem isFinished_cons {e : (deliveryPlatform τ).Event} {past : (deliveryPlatform τ).History}
    {a : DeliveryAttempt τ} : isFinished (e :: past) a = true ↔
      finishBy e = some (a.1, a.2.record) ∨ isFinished past a = true := by
  simp [isFinished]

theorem isFinished_later {e : (deliveryPlatform τ).Event} {past : (deliveryPlatform τ).History}
    {a : DeliveryAttempt τ} (h : isFinished past a = true) : isFinished (e :: past) a = true :=
  isFinished_cons.mpr (.inr h)

/-- What the process of an event does not do, is not done to the attempts of another. -/
theorem isFinished_other {pid : Nat} {step : (deliveryPlatform τ).Step}
    {past : (deliveryPlatform τ).History} {a : DeliveryAttempt τ} (hne : a.1 ≠ pid) :
    isFinished (.ran pid step :: past) a = isFinished past a := by
  have hnone : (finishBy (.ran pid step) == some (a.1, a.2.record)) = false := by
    rw [beq_eq_false_iff_ne]
    intro h
    unfold finishBy at h
    split at h
    · next heq =>
      cases heq
      split at h
      · exact hne (Prod.mk.inj (Option.some.inj h)).1.symm
      · cases h
    · cases h
  simp only [isFinished, List.any_cons, hnone, Bool.false_or]

theorem isStopped_ran {pid q : Nat} {step : (deliveryPlatform τ).Step}
    {past : (deliveryPlatform τ).History} :
    isStopped (.ran pid step :: past) q = isStopped past q := rfl

theorem isAnswered_iff {past : (deliveryPlatform τ).History} {a : DeliveryAttempt τ} :
    isAnswered past a = true ↔ ∃ x ∈ answersGiven past, x.isOf a = true := by
  simp [isAnswered]

omit [Timestamp τ] in
theorem ChannelMoment.isOf_iff {x : ChannelMoment τ} {a : DeliveryAttempt τ} :
    x.isOf a = true ↔ x.pid = a.1 ∧ x.delivery.record = a.2.record := by
  simp [ChannelMoment.isOf]

/-- The lease stays over. -/
theorem leaseOver_mono {now now' t : τ} (h : leaseOver now t = true) (hle : now ≤ now') :
    leaseOver now' t = true := by
  unfold leaseOver at *
  split at h
  · simp only [decide_eq_true_eq] at h ⊢
    exact h.trans hle
  · cases h

/-- What `callsAll` says. -/
theorem callsAll_iff {past : (deliveryPlatform τ).History} {a : DeliveryAttempt τ}
    {test : ChannelMoment τ → Bool} : callsAll past a test = true ↔
      (isStopped past a.1 = true ∨ ∃ call ∈ callsMade past, call.isOf a = true) ∧
      ∀ call ∈ callsMade past, call.isOf a = true → test call = true := by
  simp only [callsAll, Bool.and_eq_true, Bool.or_eq_true, List.any_eq_true, List.all_eq_true,
    Bool.not_eq_true']
  constructor
  · rintro ⟨hsome, hall⟩
    refine ⟨hsome, fun call hmem hof => ?_⟩
    rcases hall call hmem with hnot | htest
    · rw [hof] at hnot
      cases hnot
    · exact htest
  · rintro ⟨hsome, hall⟩
    refine ⟨hsome, fun call hmem => ?_⟩
    cases hof : call.isOf a with
    | false => exact .inl rfl
    | true => exact .inr (hall call hmem hof)

/-! ## The invariant -/

/-- The attempt was superseded rightly: it is finished, or stopped before its call, or the
lease of its call is over. -/
def AttemptGone (past : (deliveryPlatform τ).History) (now : τ) (a : DeliveryAttempt τ) : Prop :=
  isFinished past a = true ∨ callsAll past a (fun call => leaseOver now call.time) = true

/-- The delivery was stored as delivered. -/
def isDone (past : (deliveryPlatform τ).History) (id : String) : Bool := past.any (isDoneBy id)

/-- What holds of the attempts and calls of a past. -/
structure LeasesKept (w : World τ) (past : (deliveryPlatform τ).History) : Prop where
  held : ∀ a ∈ attemptsMade past, HeldDelivery w past a.2
  distinct : ∀ a ∈ attemptsMade past, ∀ b ∈ attemptsMade past, a.2.record = b.2.record → a = b
  dated : ∀ id delivery, w.notifications.deliveries.get id = some delivery →
    ∀ a ∈ attemptsMade past, a.2.id = id → ∀ t, a.2.lastAttemptAt = some t →
    ∃ last, delivery.lastAttemptAt = some last ∧ t ≤ last
  superseded : ∀ a ∈ attemptsMade past, ∀ b ∈ attemptsMade past, a.2.id = b.2.id →
    a.2.version < b.2.version → AttemptGone past w.clock a
  finished : ∀ a ∈ attemptsMade past, isFinished past a = true → isAnswered past a = true
  finishes : ∀ f ∈ past.filterMap finishBy, ∃ x, HeldDelivery w past x ∧ f.2 = x.record
  calls : ∀ call ∈ callsMade past, (call.pid, call.delivery) ∈ attemptsMade past
  answers : ∀ x ∈ answersGiven past, (x.pid, x.delivery) ∈ attemptsMade past
  done : ∀ id, isDone past id = true → (∀ delivery,
    w.notifications.deliveries.get id = some delivery → delivery.status = .delivered) ∧
    ∃ x, HeldDelivery w past x ∧ x.id = id
  apart : Always callsApart past
  counts : Always deliveredCounts past
  again : Always notAgain past

/-- The attempt a process is at. -/
structure AttemptCurrent (past : (deliveryPlatform τ).History) (pid : Nat)
    (delivery : NotificationDelivery τ) : Prop where
  mem : (pid, delivery) ∈ attemptsMade past
  unfinished : isFinished past (pid, delivery) = false
  others : ∀ a ∈ attemptsMade past, a.1 = pid → a ≠ (pid, delivery) → isFinished past a = true

/-- The one call of an attempt. -/
structure CalledAt (past : (deliveryPlatform τ).History) (pid : Nat)
    (delivery : NotificationDelivery τ) (t : τ) : Prop where
  mem : ⟨pid, delivery, t⟩ ∈ callsMade past
  only : ∀ call ∈ callsMade past, call.isOf (pid, delivery) = true → call.time = t

/-- What a process knows of its attempt: the record it claimed is stored, or the lease of its
call is over. -/
def LeaseHeld (w : World τ) (past : (deliveryPlatform τ).History) (pid : Nat) :
    DeliveryPhase τ → Prop
  | .idle | .read _ | .passed _ _ =>
    ∀ a ∈ attemptsMade past, a.1 = pid → isFinished past a = true
  | .claimed delivery => AttemptCurrent past pid delivery ∧
      (∀ call ∈ callsMade past, call.isOf (pid, delivery) = false) ∧
      isAnswered past (pid, delivery) = false ∧
      w.notifications.deliveries.get delivery.id = some delivery ∧
      isDone past delivery.id = false
  | .started delivery => AttemptCurrent past pid delivery ∧ ∃ t, CalledAt past pid delivery t ∧
      isAnswered past (pid, delivery) = false ∧
      (w.notifications.deliveries.get delivery.id = some delivery ∨ leaseOver w.clock t = true)
  | .answered delivery _ => AttemptCurrent past pid delivery ∧ ∃ t, CalledAt past pid delivery t ∧
      isAnswered past (pid, delivery) = true ∧
      (w.notifications.deliveries.get delivery.id = some delivery ∨
        (leaseOver w.clock t = true ∧ answeredWithin past ⟨pid, delivery, t⟩ = false))

/-- What is assumed of the events of a run. -/
structure LeaseTested (past : (deliveryPlatform τ).History) (e : (deliveryPlatform τ).Event) :
    Prop where
  ids : keepsIds past e
  attempts : attemptsOver past e = true

/-- The copies of the processes, and that stopped processes have none. -/
def LeaseBase (w : World τ) (past : (deliveryPlatform τ).History)
    (phases : (deliveryProtocol τ).Phases) : Prop :=
  DeliveryBase w past phases ∧
    ∀ pid call, Event.stopped pid call ∈ past → phases pid = none

theorem leaseBase : (deliveryProtocol τ).Inductive LeaseTested LeaseBase :=
  (deliveryBase fun _ _ hc => hc.ids).and (Discipline.inductive_stopped _).over

/-- A step on top of all this. -/
abbrev LeaseTaken (past : (deliveryPlatform τ).History) (phases : (deliveryProtocol τ).Phases)
    (pid : Nat) (step : (deliveryPlatform τ).Step) (ph ph' : DeliveryPhase τ) : Prop :=
  Discipline.Taken (deliveryProtocol τ) LeaseTested LeaseBase LeasesKept LeaseHeld past phases pid
    step ph ph'

section taken

variable {past : (deliveryPlatform τ).History} {phases : (deliveryProtocol τ).Phases} {pid : Nat}
  {step : (deliveryPlatform τ).Step} {ph ph' : DeliveryPhase τ}

theorem LeaseTaken.delivery (h : LeaseTaken past phases pid step ph ph') :
    DeliveryTaken past pid step ph ph' :=
  .of (fun _ _ hc => hc.ids) (fun hb => hb.1) h

/-- A process that stands somewhere has not stopped. -/
theorem LeaseTaken.live (h : LeaseTaken past phases pid step ph ph') {q : Nat}
    {phq : DeliveryPhase τ} (hq : phases q = some phq) : isStopped past q = false := by
  cases hstopped : isStopped past q with
  | false => rfl
  | true =>
    obtain ⟨e, he, hmatch⟩ := List.any_eq_true.mp hstopped
    match e with
    | .ran _ _ => cases hmatch
    | .stopped r call =>
      simp only [beq_iff_eq] at hmatch
      subst hmatch
      rw [h.base.2 r call he] at hq
      cases hq

/-- Where a process stands, its attempts other than the one it is at are finished. -/
theorem LeaseHeld.finished {w : World τ} {phq : DeliveryPhase τ} {q : Nat}
    (h : LeaseHeld w past q phq) {a : DeliveryAttempt τ} (ha : a ∈ attemptsMade past)
    (hq : a.1 = q) (hne : ∀ delivery, AttemptCurrent past q delivery → a ≠ (q, delivery)) :
    isFinished past a = true := by
  cases phq with
  | idle | read | passed => exact h a ha hq
  | claimed delivery | started delivery | answered delivery =>
    exact h.1.others a ha hq (hne delivery h.1)

/-- **An attempt that a claim or a rejection overtakes is over.** For a pending delivery whose
attempts called promptly, this is what the guards have tested. -/
theorem LeaseTaken.overtaken [LawfulTimestamp τ] {delivery : NotificationDelivery τ} {t : τ}
    {u : NotificationDeliveryUpdate τ} {tenantId : String}
    (h : LeaseTaken past phases pid step (.passed delivery t) ph')
    (hop : step.op =
      .notifications (.updateDelivery tenantId delivery.id delivery.version u))
    (hu : u.maxAttempts = none)
    (hget : step.before.notifications.deliveries.get delivery.id = some delivery)
    {a : DeliveryAttempt τ} (ha : a ∈ attemptsMade past) (hid : a.2.id = delivery.id) :
    isOver past step.before.clock a = true := by
  have hmine : ∀ b ∈ attemptsMade past, b.1 = pid → isFinished past b = true := h.own
  by_cases hpid : a.1 = pid
  · simp [isOver, hmine a ha hpid]
  have hfree : holdsAttempt past pid (delivery.id, delivery.version) = false := by
    refine List.any_eq_false.mpr fun b hb => ?_
    by_cases hb' : b.1 = pid
    · simp [hmine b hb hb']
    · simp [hb']
  have hcond := h.cond.attempts
  have hsound := h.delivery.sound
  obtain ⟨call, op, res, before, after⟩ := step
  dsimp only at hop hget hsound ⊢
  subst hop
  simp only [attemptsOver, hget, Option.all_some, bne_self_eq_false, hu, Option.isSome_none, hfree,
    Bool.false_or, othersPass, List.all_eq_true] at hcond
  have hone := hcond a ha
  simp only [beq_eq_false_iff_ne.mpr hpid, hid, bne_self_eq_false, Bool.false_or, Bool.or_eq_true,
    Bool.and_eq_true, beq_iff_eq] at hone
  rcases hone with hover | ⟨hpending, hprompt⟩
  · exact hover
  -- the lease from the claim is over, and the call began with the claim
  simp only [isPrompt, Bool.and_eq_true] at hprompt
  obtain ⟨hsome, hall⟩ := callsAll_iff.mp hprompt.2
  obtain ⟨cutoff, hcutoff, hlast⟩ := hsound.2.2.2.2 hpending
  refine Bool.or_eq_true_iff.mpr (.inr (callsAll_iff.mpr ⟨hsome, fun call hmem hof => ?_⟩))
  have hcall := hall call hmem hof
  simp only [Bool.and_eq_true, decide_eq_true_eq] at hcall ⊢
  refine ⟨?_, hcall.2⟩
  obtain ⟨last, hlastAt, hle⟩ := h.good.dated delivery.id delivery hget a ha hid _ hcall.1
  obtain ⟨e, he, hle'⟩ := LawfulTimestamp.after_of_before hcutoff (hle.trans (hlast last hlastAt))
  simp only [leaseOver, he, decide_eq_true_eq]
  exact hle'.trans hsound.2.2.1

theorem AttemptGone.of_isOver {now : τ} {a : DeliveryAttempt τ} (h : isOver past now a = true) :
    AttemptGone past now a := by
  rcases Bool.or_eq_true_iff.mp h with hfinished | hcalls
  · exact .inl hfinished
  · obtain ⟨hsome, hall⟩ := callsAll_iff.mp hcalls
    refine .inr (callsAll_iff.mpr ⟨hsome, fun call hmem hof => ?_⟩)
    have hcall := hall call hmem hof
    simp only [Bool.and_eq_true] at hcall
    exact hcall.1

/-- An attempt that is over and that its process still is at has called, and its lease is over. -/
theorem isOver_current {now : τ} {a : DeliveryAttempt τ} (h : isOver past now a = true)
    (hunfinished : isFinished past a = false) (hlive : isStopped past a.1 = false) :
    (∃ call ∈ callsMade past, call.isOf a = true) ∧ ∀ call ∈ callsMade past, call.isOf a = true →
      leaseOver now call.time = true ∧ answeredWithin past call = false := by
  simp only [isOver, hunfinished, Bool.false_or] at h
  obtain ⟨hsome, hall⟩ := callsAll_iff.mp h
  rw [hlive] at hsome
  refine ⟨hsome.resolve_left (by simp), fun call hmem hof => ?_⟩
  have hcall := hall call hmem hof
  have hpid : call.pid = a.1 := (ChannelMoment.isOf_iff.mp hof).1
  simp only [Bool.and_eq_true, outcomeLost, hpid, hlive, Bool.false_or, Bool.not_eq_true'] at hcall
  exact hcall

/-- **What an attempt claimed stays stored until the attempt is over.** -/
theorem LeaseTaken.displaced [LawfulTimestamp τ] (h : LeaseTaken past phases pid step ph ph')
    {q : Nat} {delivery : NotificationDelivery τ} (hq : q ≠ pid)
    (hcurrent : AttemptCurrent past q delivery) (hopen : delivery.isOpen = true)
    (hget : step.before.notifications.deliveries.get delivery.id = some delivery) :
    step.after.notifications.deliveries.get delivery.id = some delivery ∨
      isOver past step.before.clock (q, delivery) = true := by
  cases h.delivery.fate delivery.id with
  | same hsame => exact .inl (hsame.trans hget)
  | written hid hwrite hop hbefore hafter =>
    obtain rfl := Option.some.inj (hbefore.symm.trans hget)
    obtain ⟨tenantId, hop⟩ := hop
    refine .inr ?_
    cases hwrite with
    | claim _ t => exact h.overtaken hop rfl hget hcurrent.mem rfl
    | reject _ t hu => exact h.overtaken hop hu.maxAttempts hget hcurrent.mem rfl
    | finish _ delivered hu =>
      have hmine := h.own.1.mem
      exact absurd (congrArg Prod.fst (h.good.distinct _ hcurrent.mem _ hmine rfl)) hq
    | retry _ t service hentry hstatus =>
      simp [NotificationDelivery.isOpen, hstatus] at hopen
  | created hid hfresh hsubmitted hitem hparent hbefore hafter =>
    rw [hget] at hbefore
    cases hbefore
  | erased hop hafter =>
    refine .inr ?_
    have hcond := h.cond.attempts
    obtain ⟨call, op, res, before, after⟩ := step
    dsimp only at hop
    subst hop
    simp only [attemptsOver, othersPass, List.all_eq_true] at hcond
    simpa [hq] using hcond _ hcurrent.mem

/-- A call is of the process that makes it. -/
theorem LeaseTaken.call_iff (h : LeaseTaken past phases pid step ph ph') {call : ChannelMoment τ}
    (hcall : callBy (.ran pid step) = some call) {a : DeliveryAttempt τ}
    (ha : a ∈ attemptsMade past) (hof : call.isOf a = true) :
    ph = .claimed a.2 ∧ a = (pid, a.2) := by
  obtain ⟨hph, hcalls⟩ := callBy_elim h.next hcall
  obtain ⟨hpid, hrecord⟩ := ChannelMoment.isOf_iff.mp hof
  have hown := h.own
  rw [hph] at hown
  have hmine : (pid, call.delivery) ∈ attemptsMade past := hown.1.mem
  have heq := h.good.distinct _ ha _ hmine hrecord.symm
  rw [heq]
  exact ⟨hph, rfl⟩

/-- What is gone stays gone. -/
theorem LeaseTaken.gone (h : LeaseTaken past phases pid step ph ph') {a : DeliveryAttempt τ}
    (ha : a ∈ attemptsMade past) (hgone : AttemptGone past step.before.clock a) :
    AttemptGone (.ran pid step :: past) step.after.clock a := by
  have hclock := h.delivery.clock
  rcases hgone with hfinished | hcalls
  · exact .inl (isFinished_later hfinished)
  obtain ⟨hsome, hall⟩ := callsAll_iff.mp hcalls
  refine .inr (callsAll_iff.mpr ⟨?_, fun call hmem hof => ?_⟩)
  · rcases hsome with hstopped | ⟨call, hmem, hof⟩
    · exact .inl hstopped
    · exact .inr ⟨call, mem_filterMap_cons.mpr (.inr hmem), hof⟩
  · rw [hclock]
    rcases mem_filterMap_cons.mp hmem with hnew | hold
    · -- whoever calls now has not called before, nor stopped
      obtain ⟨hph, heq⟩ := h.call_iff hnew ha hof
      have hown := h.own
      rw [hph] at hown
      rcases hsome with hstopped | ⟨older, holder, hofOlder⟩
      · have hlive := h.live h.here
        rw [heq] at hstopped
        rw [hlive] at hstopped
        cases hstopped
      · rw [heq, hown.2.1 older holder] at hofOlder
        cases hofOlder
    · exact hall call hold hof

/-- A new attempt is of a version that was not there before. -/
theorem LeaseTaken.newer (h : LeaseTaken past phases pid step ph ph') {b : DeliveryAttempt τ}
    (hb : attemptBy (.ran pid step) = some b) {x : NotificationDelivery τ}
    (hx : HeldDelivery step.before past x) (hid : x.id = b.2.id) : x.version < b.2.version := by
  obtain ⟨delivery, t, tenantId, rfl, -, -, hget, -⟩ := attemptBy_elim h.delivery hb
  have hid' : x.id = delivery.id := hid
  have hle := (hx.seen delivery (by rw [hid']; exact hget)).1
  show x.version < delivery.version + 1
  omega

theorem LeaseTaken.finished_of (h : LeaseTaken past phases pid step ph ph')
    {a : DeliveryAttempt τ} (ha : a ∈ attemptsMade past)
    (hfinish : finishBy (.ran pid step) = some (a.1, a.2.record)) :
    isAnswered past a = true := by
  obtain ⟨delivery, hf, -, hwho⟩ := finishBy_elim h.delivery hfinish
  obtain ⟨hpid, hrecord⟩ := Prod.mk.inj hf
  have hown := h.own
  have hrest : (∀ a ∈ attemptsMade past, a.1 = pid → isFinished past a = true) →
      isAnswered past a = true := fun hall => h.good.finished a ha (hall a ha hpid)
  rcases hwho with ⟨delivered, rfl⟩ | ⟨t, rfl⟩ | rfl
  · obtain ⟨hcurrent, t, -, hanswered, -⟩ := hown
    have heq := h.good.distinct a ha _ hcurrent.mem hrecord
    rw [heq]
    exact hanswered
  · exact hrest hown
  · exact hrest hown

theorem isAnswered_later {e : (deliveryPlatform τ).Event} {a : DeliveryAttempt τ}
    (h : isAnswered past a = true) : isAnswered (e :: past) a = true := by
  obtain ⟨x, hx, hof⟩ := isAnswered_iff.mp h
  exact isAnswered_iff.mpr ⟨x, mem_filterMap_cons.mpr (.inr hx), hof⟩

/-- A conditional write that meets the version it expects goes through. -/
theorem updateDelivery_meets {tenantId id : String} {u : NotificationDeliveryUpdate τ}
    {choice : Choice} {w w' : World τ} {stored : NotificationDelivery τ}
    {r : Option (NotificationDelivery τ)}
    (h : AppOp.exec (.notifications (.updateDelivery tenantId id stored.version u)) choice w =
      some (.ok r, w'))
    (hget : w.notifications.deliveries.get id = some stored) (htenant : stored.tenantId = tenantId) :
    w'.notifications.deliveries.get id = some (u.written stored) := by
  have hupdate : w.notifications.deliveries.updateIfVersion id stored.version u.apply =
      (some (u.written stored), w.notifications.deliveries.put id (u.written stored)) := by
    simp only [Table.updateIfVersion, hget, version_notificationDelivery, if_true]
    rfl
  have hmatch : (w.notifications.deliveries.get id).any (fun d => d.tenantId == tenantId) = true := by
    simp [hget, htenant]
  simp only [AppOp.exec, NotificationOp.exec, hmatch, if_true, hupdate] at h
  rcases stored_cases h with ⟨-, rfl⟩ | ⟨_, hres, -⟩
  · exact Table.get_put_same ..
  · cases hres

/-- No call begins while another is in flight within its lease. -/
theorem LeaseTaken.apart (h : LeaseTaken past phases pid step ph ph') :
    callsApart past (.ran pid step) = true := by
  cases hcall : callBy (.ran pid step) with
  | none => simp [callsApart, hcall]
  | some call =>
    obtain ⟨hph, hcalls⟩ := callBy_elim h.next hcall
    have hown := h.own
    rw [hph] at hown
    obtain ⟨hcurrent, huncalled, -⟩ := hown
    have htime : call.time = step.before.clock := by rw [hcalls]
    simp only [callsApart, hcall, Option.all_some, List.all_eq_true, Bool.or_eq_true, bne_iff_ne,
      ne_eq]
    intro older holder
    have hattempt := h.good.calls older holder
    have hof : older.isOf (older.pid, older.delivery) = true :=
      ChannelMoment.isOf_iff.mpr ⟨rfl, rfl⟩
    by_cases hid : older.delivery.id = call.delivery.id
    · rcases Nat.lt_trichotomy older.delivery.version call.delivery.version with hlt | heq | hgt
      · -- the older attempt was superseded by this one
        rcases h.good.superseded _ hattempt _ hcurrent.mem hid hlt with hfinished | hgone
        · exact .inl (.inr (h.good.finished _ hattempt hfinished))
        · rw [htime]
          exact .inr ((callsAll_iff.mp hgone).2 older holder hof)
      · -- it is this one, which has not called
        have hsame := h.good.distinct _ hattempt _ hcurrent.mem (Prod.ext hid heq)
        rw [hsame, huncalled older holder] at hof
        cases hof
      · -- this one would have been superseded
        rcases h.good.superseded _ hcurrent.mem _ hattempt hid.symm hgt with hfinished | hgone
        · rw [hcurrent.unfinished] at hfinished
          cases hfinished
        · rcases (callsAll_iff.mp hgone).1 with hstopped | ⟨mine, hmine, hofMine⟩
          · have hlive := h.live h.here
            rw [hlive] at hstopped
            cases hstopped
          · rw [huncalled mine hmine] at hofMine
            cases hofMine
    · exact .inl (.inl hid)

/-- What was delivered within its lease is stored so. -/
theorem LeaseTaken.counts (h : LeaseTaken past phases pid step ph ph') :
    deliveredCounts past (.ran pid step) = true := by
  have hown := h.own
  obtain ⟨choice, hexec⟩ := h.exec
  have hother : ∀ {call : DeliveryCall τ} {tenantId id : String} {v : Nat}
      {u : NotificationDeliveryUpdate τ} {res : Except JsError (Option (NotificationDelivery τ))}
      {before after : World τ}, u.status ≠ some .delivered →
      deliveredCounts past (.ran pid ⟨call, .notifications (.updateDelivery tenantId id v u), res,
        before, after⟩) = true := by
    intro call tenantId id v u res before after hu
    cases res with
    | error e => rfl
    | ok r => simp [deliveredCounts, hu]
  cases h.next with
  | plain hop =>
    unfold deliveredCounts
    split
    · next heq =>
      cases heq
      cases hop
    · rfl
  | get | guard | start | settle | create | erase => rfl
  | claim | retry => exact hother fun hstatus => by cases hstatus
  | reject hu =>
    obtain ⟨status, hstatus, -, hdelivered, -⟩ := hu.status
    refine hother fun heq => ?_
    rw [hstatus] at heq
    exact Bool.false_ne_true (hdelivered.mp (Option.some.inj heq))
  | finish hu =>
    rename_i call delivery delivered u res before after
    obtain ⟨hcurrent, t, hcalled, -, hstored⟩ := hown
    match res with
    | .error e => rfl
    | .ok r =>
      simp only [deliveredCounts, Bool.or_eq_true, bne_iff_ne, ne_eq, List.all_eq_true,
        Bool.not_eq_true', Bool.and_eq_false_iff]
      by_cases hstatus : u.status = some .delivered
      · refine .inr fun made hmem => ?_
        by_cases hof : made.isOf (pid, delivery) = true
        · obtain ⟨hpid, hrecord⟩ := ChannelMoment.isOf_iff.mp hof
          have hsame := h.good.distinct _ (h.good.calls made hmem) _ hcurrent.mem hrecord
          have hmade : made = ⟨pid, delivery, t⟩ := by
            obtain ⟨hp, hd⟩ := Prod.mk.inj hsame
            have ht := hcalled.only made hmem hof
            obtain ⟨p, d, time⟩ := made
            dsimp only at hp hd ht
            subst hp hd ht
            rfl
          rcases hstored with hget | ⟨-, hnot⟩
          · refine .inr ?_
            have hafter := updateDelivery_meets hexec hget rfl
            dsimp only at hafter
            simp [storesDelivered, hafter, NotificationDeliveryUpdate.written,
              NotificationDeliveryUpdate.apply, hstatus]
          · refine .inl (.inr ?_)
            rw [hmade]
            exact hnot
        · exact .inl (.inl (Bool.and_eq_false_iff.mp (Bool.eq_false_of_not_eq_true hof)))
      · exact .inl hstatus

/-- The channel is not called for what was stored as delivered. -/
theorem LeaseTaken.again (h : LeaseTaken past phases pid step ph ph') :
    notAgain past (.ran pid step) = true := by
  cases hcall : callBy (.ran pid step) with
  | none => simp [notAgain, hcall]
  | some call =>
    obtain ⟨hph, -⟩ := callBy_elim h.next hcall
    have hown := h.own
    rw [hph] at hown
    have hdone : isDone past call.delivery.id = false := hown.2.2.2.2
    simp only [notAgain, hcall, Option.all_some]
    exact congrArg Bool.not hdone

/-- What is stored as delivered stays so. -/
theorem LeaseTaken.done (h : LeaseTaken past phases pid step ph ph') {id : String}
    (hdone : isDone (.ran pid step :: past) id = true) :
    (∀ delivery, step.after.notifications.deliveries.get id = some delivery →
      delivery.status = .delivered) ∧
    ∃ x, HeldDelivery step.after (.ran pid step :: past) x ∧ x.id = id := by
  rcases Bool.or_eq_true_iff.mp hdone with hnow | hpast
  · simp only [isDoneBy, storesDelivered, Option.any_eq_true, beq_iff_eq] at hnow
    obtain ⟨x, hget, hstatus⟩ := hnow
    refine ⟨fun delivery hdelivery => ?_, x, (h.delivery.kept' id x hget).2,
      (h.delivery.kept' id x hget).1⟩
    rw [hget] at hdelivery
    obtain rfl := Option.some.inj hdelivery
    exact hstatus
  · obtain ⟨hall, x, hx, hxid⟩ := h.good.done id hpast
    refine ⟨fun delivery hget => ?_, x, h.delivery.held x hx, hxid⟩
    have hsound := h.delivery.sound
    have hclosed : ∀ old, old.isOpen = true →
        step.before.notifications.deliveries.get id ≠ some old := by
      intro old hopen hold
      simp [NotificationDelivery.isOpen, hall old hold] at hopen
    cases h.delivery.fate id with
    | same hsame => exact hall delivery (hsame.symm.trans hget)
    | written hid hwrite hop hbefore hafter =>
      cases hwrite with
      | claim _ t | reject _ t hu => exact absurd hbefore (hclosed _ hsound.2.1)
      | finish _ delivered hu => exact absurd hbefore (hclosed _ hsound.2)
      | retry _ t service hentry hstatus =>
        rw [hall _ hbefore] at hstatus
        cases hstatus
    | created hid hfresh hsubmitted hitem hparent hbefore hafter =>
      refine (hx.not_created h.delivery.ids (hsubmitted pid) (hid.trans hxid.symm) ?_).elim
      rw [hfresh.notificationId]
      exact hitem
    | erased hop hafter =>
      rw [hget] at hafter
      cases hafter

/-- The last attempt of what is stored is dated as late as every other. -/
theorem LeaseTaken.dated (h : LeaseTaken past phases pid step ph ph') (id : String)
    (delivery : NotificationDelivery τ)
    (hget : step.after.notifications.deliveries.get id = some delivery) :
    ∀ a ∈ attemptsMade (.ran pid step :: past), a.2.id = id →
    ∀ t, a.2.lastAttemptAt = some t → ∃ last, delivery.lastAttemptAt = some last ∧ t ≤ last := by
  intro a ha hid t ht
  have hsound := h.delivery.sound
  rcases mem_filterMap_cons.mp ha with hnew | hold
  · -- the claim is what is stored
    obtain ⟨old, t', tenantId, rfl, -, -, -, hafter⟩ := attemptBy_elim h.delivery hnew
    rw [show old.id = id from hid, hget] at hafter
    obtain rfl := Option.some.inj hafter
    exact ⟨t, ht, le_refl t⟩
  · cases h.delivery.fate id with
    | same hsame => exact h.good.dated id delivery (hsame.symm.trans hget) a hold hid t ht
    | written hid' hwrite hop hbefore hafter =>
      obtain rfl := Option.some.inj (hafter.symm.trans hget)
      obtain ⟨last, hlast, hle⟩ := h.good.dated id _ hbefore a hold hid t ht
      cases hwrite with
      | claim _ t' => exact ⟨t', rfl, hle.trans (hsound.2.2.2.1 last hlast)⟩
      | reject _ t' hu | finish _ delivered hu =>
        refine ⟨last, ?_, hle⟩
        simpa [NotificationDeliveryUpdate.written, NotificationDeliveryUpdate.apply,
          hu.lastAttemptAt] using hlast
      | retry _ t' service hentry hstatus => exact ⟨last, hlast, hle⟩
    | created hid' hfresh hsubmitted hitem hparent hbefore hafter =>
      refine ((h.good.held a hold).not_created h.delivery.ids (hsubmitted pid)
        (hid'.trans hid.symm) ?_).elim
      rw [hfresh.notificationId]
      exact hitem
    | erased hop hafter =>
      rw [hget] at hafter
      cases hafter

/-- A claim supersedes what was claimed before. -/
theorem LeaseTaken.superseded [LawfulTimestamp τ] (h : LeaseTaken past phases pid step ph ph')
    {a b : DeliveryAttempt τ} (ha : a ∈ attemptsMade (.ran pid step :: past))
    (hb : b ∈ attemptsMade (.ran pid step :: past)) (hid : a.2.id = b.2.id)
    (hlt : a.2.version < b.2.version) : AttemptGone (.ran pid step :: past) step.after.clock a := by
  rcases mem_filterMap_cons.mp ha with hnewA | holdA
  · rcases mem_filterMap_cons.mp hb with hnewB | holdB
    · obtain rfl := Option.some.inj (hnewA.symm.trans hnewB)
      exact absurd hlt (Nat.lt_irrefl _)
    · have hgt := h.newer hnewA (h.good.held b holdB) hid.symm
      exact absurd hlt (Nat.lt_asymm hgt)
  · refine h.gone holdA ?_
    rcases mem_filterMap_cons.mp hb with hnewB | holdB
    · obtain ⟨delivery, t, tenantId, rfl, rfl, hop, hbefore, -⟩ := attemptBy_elim h.delivery hnewB
      exact .of_isOver (h.overtaken hop rfl hbefore holdA hid)
    · exact h.good.superseded a holdA b holdB hid hlt

/-- A new attempt has no past. -/
theorem LeaseTaken.fresh (h : LeaseTaken past phases pid step ph ph') {a : DeliveryAttempt τ}
    (hnew : attemptBy (.ran pid step) = some a) :
    isFinished past a = false ∧ (∀ b ∈ attemptsMade past, b.2.record ≠ a.2.record) := by
  constructor
  · cases hfinished : isFinished past a with
    | false => rfl
    | true =>
      obtain ⟨e, he, hmatch⟩ := List.any_eq_true.mp hfinished
      simp only [beq_iff_eq] at hmatch
      obtain ⟨x, hx, hrecord⟩ := h.good.finishes _ (List.mem_filterMap.mpr ⟨e, he, hmatch⟩)
      obtain ⟨hid, hversion⟩ := Prod.mk.inj hrecord
      have hlt := h.newer hnew hx hid.symm
      omega
  · intro b hb heq
    obtain ⟨hid, hversion⟩ := Prod.mk.inj heq
    have hlt := h.newer hnew (h.good.held b hb) hid
    omega

theorem LeaseTaken.good_after [LawfulTimestamp τ] (h : LeaseTaken past phases pid step ph ph') :
    LeasesKept step.after (.ran pid step :: past) where
  held a ha := by
    rcases mem_filterMap_cons.mp ha with hnew | hold
    · obtain ⟨delivery, t, tenantId, rfl, -, -, -, hafter⟩ := attemptBy_elim h.delivery hnew
      exact (h.delivery.kept' _ _ hafter).2
    · exact h.delivery.held _ (h.good.held a hold)
  distinct a ha b hb heq := by
    rcases mem_filterMap_cons.mp ha with hnewA | holdA
    · rcases mem_filterMap_cons.mp hb with hnewB | holdB
      · exact Option.some.inj (hnewA.symm.trans hnewB)
      · exact absurd heq.symm ((h.fresh hnewA).2 b holdB)
    · rcases mem_filterMap_cons.mp hb with hnewB | holdB
      · exact absurd heq ((h.fresh hnewB).2 a holdA)
      · exact h.good.distinct a holdA b holdB heq
  dated := h.dated
  superseded _ ha _ hb hid hlt := h.superseded ha hb hid hlt
  finished a ha hfinished := by
    rcases mem_filterMap_cons.mp ha with hnew | hold
    · -- who claims now does not finish now, and had not before
      rcases isFinished_cons.mp hfinished with hnow | hpast
      · rw [attemptBy_of_finishBy hnow] at hnew
        cases hnew
      · rw [(h.fresh hnew).1] at hpast
        cases hpast
    · rcases isFinished_cons.mp hfinished with hnow | hpast
      · exact isAnswered_later (h.finished_of hold hnow)
      · exact isAnswered_later (h.good.finished a hold hpast)
  finishes f hf := by
    rcases mem_filterMap_cons.mp hf with hnew | hold
    · obtain ⟨delivery, rfl, hheld, -⟩ := finishBy_elim h.delivery hnew
      exact ⟨delivery, h.delivery.held _ hheld, rfl⟩
    · obtain ⟨x, hx, hrecord⟩ := h.good.finishes f hold
      exact ⟨x, h.delivery.held x hx, hrecord⟩
  calls call hcall := by
    refine mem_filterMap_cons.mpr (.inr ?_)
    rcases mem_filterMap_cons.mp hcall with hnew | hold
    · obtain ⟨hph, heq⟩ := callBy_elim h.next hnew
      have hown := h.own
      rw [hph] at hown
      rw [heq]
      exact hown.1.mem
    · exact h.good.calls call hold
  answers x hx := by
    refine mem_filterMap_cons.mpr (.inr ?_)
    rcases mem_filterMap_cons.mp hx with hnew | hold
    · obtain ⟨hph, heq⟩ := answerBy_elim h.next hnew
      have hown := h.own
      rw [hph] at hown
      rw [heq]
      exact hown.1.mem
    · exact h.good.answers x hold
  done _ hdone := h.done hdone
  apart := ⟨h.apart, h.good.apart⟩
  counts := ⟨h.counts, h.good.counts⟩
  again := ⟨h.again, h.good.again⟩

/-! ### What a process knows after a step -/

/-- The event adds nothing to the attempts and calls of the process. -/
structure SilentFor (e : (deliveryPlatform τ).Event) (q : Nat) : Prop where
  attempt : ∀ a, attemptBy e = some a → a.1 ≠ q
  call : ∀ call, callBy e = some call → call.pid ≠ q
  answer : ∀ x, answerBy e = some x → x.pid ≠ q
  finish : ∀ f, finishBy e = some f → f.1 ≠ q

/-- A step is silent for every other process. -/
theorem LeaseTaken.silent (h : LeaseTaken past phases pid step ph ph') {q : Nat} (hq : q ≠ pid) :
    SilentFor (.ran pid step) q where
  attempt a ha := by
    obtain ⟨delivery, t, tenantId, rfl, -⟩ := attemptBy_elim h.delivery ha
    exact hq.symm
  call call hcall := by
    obtain ⟨-, heq⟩ := callBy_elim h.next hcall
    rw [heq]
    exact hq.symm
  answer x hx := by
    obtain ⟨-, heq⟩ := answerBy_elim h.next hx
    rw [heq]
    exact hq.symm
  finish f hf := by
    obtain ⟨delivery, rfl, -⟩ := finishBy_elim h.delivery hf
    exact hq.symm

/-- An event that is none of the four is silent for everyone. -/
theorem SilentFor.of_none {e : (deliveryPlatform τ).Event} {q : Nat} (ha : attemptBy e = none)
    (hc : callBy e = none) (hx : answerBy e = none) (hf : finishBy e = none) : SilentFor e q where
  attempt a h := by
    rw [ha] at h
    cases h
  call call h := by
    rw [hc] at h
    cases h
  answer x h := by
    rw [hx] at h
    cases h
  finish f h := by
    rw [hf] at h
    cases h

section silent

variable {e : (deliveryPlatform τ).Event} {q : Nat} {delivery : NotificationDelivery τ}

theorem SilentFor.unfinished (h : SilentFor e q)
    (hunfinished : isFinished past (q, delivery) = false) :
    isFinished (e :: past) (q, delivery) = false := by
  refine Bool.eq_false_of_not_eq_true fun hfinished => ?_
  rcases isFinished_cons.mp hfinished with hnow | hpast
  · exact h.finish _ hnow rfl
  · rw [hunfinished] at hpast
    cases hpast

theorem SilentFor.rest (h : SilentFor e q)
    (hrest : ∀ a ∈ attemptsMade past, a.1 = q → isFinished past a = true) :
    ∀ a ∈ attemptsMade (e :: past), a.1 = q → isFinished (e :: past) a = true := by
  intro a ha hq
  rcases mem_filterMap_cons.mp ha with hnew | hold
  · exact absurd hq (h.attempt a hnew)
  · exact isFinished_later (hrest a hold hq)

theorem SilentFor.current (h : SilentFor e q) (hcurrent : AttemptCurrent past q delivery) :
    AttemptCurrent (e :: past) q delivery := by
  refine ⟨mem_filterMap_cons.mpr (.inr hcurrent.mem), h.unfinished hcurrent.unfinished, ?_⟩
  intro a ha hq hne
  rcases mem_filterMap_cons.mp ha with hnew | hold
  · exact absurd hq (h.attempt a hnew)
  · exact isFinished_later (hcurrent.others a hold hq hne)

theorem SilentFor.uncalled (h : SilentFor e q)
    (huncalled : ∀ call ∈ callsMade past, call.isOf (q, delivery) = false) :
    ∀ call ∈ callsMade (e :: past), call.isOf (q, delivery) = false := by
  intro call hmem
  rcases mem_filterMap_cons.mp hmem with hnew | hold
  · refine Bool.eq_false_of_not_eq_true fun hof => ?_
    exact h.call call hnew (ChannelMoment.isOf_iff.mp hof).1
  · exact huncalled call hold

theorem SilentFor.calledAt (h : SilentFor e q) {t : τ} (hcalled : CalledAt past q delivery t) :
    CalledAt (e :: past) q delivery t := by
  refine ⟨mem_filterMap_cons.mpr (.inr hcalled.mem), fun call hmem hof => ?_⟩
  rcases mem_filterMap_cons.mp hmem with hnew | hold
  · exact absurd (ChannelMoment.isOf_iff.mp hof).1 (h.call call hnew)
  · exact hcalled.only call hold hof

theorem SilentFor.unanswered (h : SilentFor e q)
    (hunanswered : isAnswered past (q, delivery) = false) :
    isAnswered (e :: past) (q, delivery) = false := by
  refine Bool.eq_false_of_not_eq_true fun hanswered => ?_
  obtain ⟨x, hx, hof⟩ := isAnswered_iff.mp hanswered
  rcases mem_filterMap_cons.mp hx with hnew | hold
  · exact h.answer x hnew (ChannelMoment.isOf_iff.mp hof).1
  · rw [isAnswered_iff.mpr ⟨x, hold, hof⟩] at hunanswered
    cases hunanswered

theorem SilentFor.notWithin (h : SilentFor e q) {t : τ}
    (hnot : answeredWithin past ⟨q, delivery, t⟩ = false) :
    answeredWithin (e :: past) ⟨q, delivery, t⟩ = false := by
  refine List.any_eq_false.mpr fun x hx => ?_
  rcases mem_filterMap_cons.mp hx with hnew | hold
  · have hpid : x.pid ≠ q := h.answer x hnew
    simp [ChannelMoment.isOf, hpid]
  · exact List.any_eq_false.mp hnot x hold

end silent

/-- A record that is stored and open was not delivered. -/
theorem LeaseTaken.undone (h : LeaseTaken past phases pid step ph ph')
    {delivery : NotificationDelivery τ} (hopen : delivery.isOpen = true)
    (hget : step.after.notifications.deliveries.get delivery.id = some delivery) :
    isDone (.ran pid step :: past) delivery.id = false := by
  refine Bool.eq_false_of_not_eq_true fun hdone => ?_
  have hstatus := (h.done hdone).1 delivery hget
  simp [NotificationDelivery.isOpen, hstatus] at hopen

/-- What the others know. -/
theorem LeaseTaken.other [LawfulTimestamp τ] (h : LeaseTaken past phases pid step ph ph') {q : Nat}
    {phq : DeliveryPhase τ} (hne : q ≠ pid) (hq : phases q = some phq) :
    LeaseHeld step.after (.ran pid step :: past) q phq := by
  have hsilent := h.silent hne
  have hlive := h.live hq
  have hheld := h.sound q phq hq
  have hsound := h.base.1.2 q phq hq
  have hclock := h.delivery.clock
  cases phq with
  | idle | read | passed => exact hsilent.rest hheld
  | claimed delivery =>
    obtain ⟨hcurrent, huncalled, hunanswered, hget, -⟩ := hheld
    have hget' : step.after.notifications.deliveries.get delivery.id = some delivery := by
      rcases h.displaced hne hcurrent hsound.2 hget with hsame | hover
      · exact hsame
      · obtain ⟨⟨call, hmem, hof⟩, -⟩ := isOver_current hover hcurrent.unfinished hlive
        rw [huncalled call hmem] at hof
        cases hof
    exact ⟨hsilent.current hcurrent, hsilent.uncalled huncalled, hsilent.unanswered hunanswered,
      hget', h.undone hsound.2 hget'⟩
  | started delivery =>
    obtain ⟨hcurrent, t, hcalled, hunanswered, hstored⟩ := hheld
    refine ⟨hsilent.current hcurrent, t, hsilent.calledAt hcalled, hsilent.unanswered hunanswered, ?_⟩
    rw [hclock]
    rcases hstored with hget | hover
    · rcases h.displaced hne hcurrent hsound.2 hget with hsame | hover
      · exact .inl hsame
      · have hcalls := (isOver_current hover hcurrent.unfinished hlive).2 _ hcalled.mem
          (ChannelMoment.isOf_iff.mpr ⟨rfl, rfl⟩)
        exact .inr hcalls.1
    · exact .inr hover
  | answered delivery delivered =>
    obtain ⟨hcurrent, t, hcalled, hanswered, hstored⟩ := hheld
    refine ⟨hsilent.current hcurrent, t, hsilent.calledAt hcalled, isAnswered_later hanswered, ?_⟩
    rw [hclock]
    rcases hstored with hget | ⟨hover, hnot⟩
    · rcases h.displaced hne hcurrent hsound.2 hget with hsame | hover
      · exact .inl hsame
      · have hcalls := (isOver_current hover hcurrent.unfinished hlive).2 _ hcalled.mem
          (ChannelMoment.isOf_iff.mpr ⟨rfl, rfl⟩)
        exact .inr ⟨hcalls.1, hsilent.notWithin hcalls.2⟩
    · exact .inr ⟨hover, hsilent.notWithin hnot⟩

/-- Calls that leave deliveries alone are silent. -/
theorem silent_plain {q : Nat} (hop : step.op.leavesDeliveries = true) :
    SilentFor (.ran pid step) q := by
  refine .of_none ?_ ?_ ?_ ?_
  · unfold attemptBy
    split
    · next heq =>
      cases heq
      cases hop
    · rfl
  · unfold callBy
    split
    · next heq =>
      cases heq
      cases hop
    · rfl
  · unfold answerBy
    split
    · next heq =>
      cases heq
      cases hop
    · rfl
  · unfold finishBy
    split
    · next heq =>
      cases heq
      cases hop
    · rfl

/-- What a process knows after an event that is silent for it. -/
theorem LeaseHeld.silent {w w' : World τ} {e : (deliveryPlatform τ).Event} {q : Nat}
    {phq : DeliveryPhase τ} (h : LeaseHeld w past q phq) (hsilent : SilentFor e q)
    (hsame : w'.notifications.deliveries = w.notifications.deliveries) (hclock : w'.clock = w.clock)
    (hdone : ∀ delivery, phq = .claimed delivery → isDone (e :: past) delivery.id = false) :
    LeaseHeld w' (e :: past) q phq := by
  cases phq with
  | idle | read | passed => exact hsilent.rest h
  | claimed delivery =>
    obtain ⟨hcurrent, huncalled, hunanswered, hget, -⟩ := h
    exact ⟨hsilent.current hcurrent, hsilent.uncalled huncalled, hsilent.unanswered hunanswered,
      by rw [hsame]; exact hget, hdone delivery rfl⟩
  | started delivery =>
    obtain ⟨hcurrent, t, hcalled, hunanswered, hstored⟩ := h
    refine ⟨hsilent.current hcurrent, t, hsilent.calledAt hcalled, hsilent.unanswered hunanswered, ?_⟩
    rw [hclock, hsame]
    exact hstored
  | answered delivery delivered =>
    obtain ⟨hcurrent, t, hcalled, hanswered, hstored⟩ := h
    refine ⟨hsilent.current hcurrent, t, hsilent.calledAt hcalled, isAnswered_later hanswered, ?_⟩
    rw [hclock, hsame]
    exact hstored.imp_right fun hover => ⟨hover.1, hsilent.notWithin hover.2⟩

/-- What the process knows after a call that leaves the deliveries alone. -/
theorem LeaseTaken.own_plain (h : LeaseTaken past phases pid step ph ph)
    (hop : step.op.leavesDeliveries = true) :
    LeaseHeld step.after (.ran pid step :: past) pid ph := by
  obtain ⟨choice, hexec⟩ := h.exec
  have hsame := (leavesDeliveries_exec hop hexec).1
  refine LeaseHeld.silent h.own (silent_plain hop) hsame h.delivery.clock ?_
  rintro delivery rfl
  have hget : step.before.notifications.deliveries.get delivery.id = some delivery :=
    h.own.2.2.2.1
  exact h.undone h.delivery.sound.2 (by rw [hsame]; exact hget)

/-- What the process knows after its claim went through. -/
theorem LeaseTaken.own_claim {claimed : NotificationDelivery τ}
    (h : LeaseTaken past phases pid step ph (.claimed claimed))
    (hnew : attemptBy (.ran pid step) = some (pid, claimed)) :
    LeaseHeld step.after (.ran pid step :: past) pid (.claimed claimed) := by
  obtain ⟨hunfinished, hfresh⟩ := h.fresh hnew
  obtain ⟨delivery, t, tenantId, heq, rfl, hop, -, hafter⟩ := attemptBy_elim h.delivery hnew
  have hclaimed : claimed = (attemptClaim delivery t).written delivery := (Prod.mk.inj heq).2
  have hown : ∀ a ∈ attemptsMade past, a.1 = pid → isFinished past a = true := h.own
  have hget : step.after.notifications.deliveries.get claimed.id = some claimed := by
    rw [hclaimed] at hafter ⊢
    exact hafter
  have hopen : claimed.isOpen = true := by
    rw [hclaimed]
    exact h.delivery.sound.2.1
  have hother : ∀ x : ChannelMoment τ, (x.pid, x.delivery) ∈ attemptsMade past →
      x.isOf (pid, claimed) = false := by
    intro x hx
    refine Bool.eq_false_of_not_eq_true fun hof => ?_
    exact hfresh _ hx (ChannelMoment.isOf_iff.mp hof).2
  refine ⟨⟨mem_filterMap_cons.mpr (.inl hnew), ?_, ?_⟩, ?_, ?_, hget, h.undone hopen hget⟩
  · refine Bool.eq_false_of_not_eq_true fun hfinished => ?_
    rcases isFinished_cons.mp hfinished with hnow | hpast
    · rw [attemptBy_of_finishBy hnow] at hnew
      cases hnew
    · rw [hunfinished] at hpast
      cases hpast
  · intro a ha hpid hne
    rcases mem_filterMap_cons.mp ha with hnow | hold
    · exact absurd (Option.some.inj (hnow.symm.trans hnew)) hne
    · exact isFinished_later (hown a hold hpid)
  · intro call hmem
    rcases mem_filterMap_cons.mp hmem with hnow | hold
    · obtain ⟨hph, -⟩ := callBy_elim h.next hnow
      cases hph
    · exact hother call (h.good.calls call hold)
  · refine Bool.eq_false_of_not_eq_true fun hanswered => ?_
    obtain ⟨x, hx, hof⟩ := isAnswered_iff.mp hanswered
    rcases mem_filterMap_cons.mp hx with hnow | hold
    · obtain ⟨hph, -⟩ := answerBy_elim h.next hnow
      cases hph
    · rw [hother x (h.good.answers x hold)] at hof
      cases hof

/-- What the process knows once it is at no attempt. -/
theorem rest_after {q : Nat} {e : (deliveryPlatform τ).Event}
    (hrest : ∀ a ∈ attemptsMade past, a.1 = q → isFinished (e :: past) a = true)
    (hnone : attemptBy e = none) :
    ∀ a ∈ attemptsMade (e :: past), a.1 = q → isFinished (e :: past) a = true := by
  intro a ha hq
  rcases mem_filterMap_cons.mp ha with hnew | hold
  · rw [hnone] at hnew
    cases hnew
  · exact hrest a hold hq

theorem AttemptCurrent.later {q : Nat} {e : (deliveryPlatform τ).Event}
    {delivery : NotificationDelivery τ} (h : AttemptCurrent past q delivery)
    (hattempt : attemptBy e = none) (hfinish : finishBy e = none) :
    AttemptCurrent (e :: past) q delivery := by
  refine ⟨mem_filterMap_cons.mpr (.inr h.mem), ?_, fun a ha hq hne => ?_⟩
  · refine Bool.eq_false_of_not_eq_true fun hfinished => ?_
    rcases isFinished_cons.mp hfinished with hnow | hpast
    · rw [hfinish] at hnow
      cases hnow
    · rw [h.unfinished] at hpast
      cases hpast
  · rcases mem_filterMap_cons.mp ha with hnew | hold
    · rw [hattempt] at hnew
      cases hnew
    · exact isFinished_later (h.others a hold hq hne)

theorem LeaseTaken.own_after (h : LeaseTaken past phases pid step ph ph') :
    LeaseHeld step.after (.ran pid step :: past) pid ph' := by
  obtain ⟨choice, hexec⟩ := h.exec
  have hown := h.own
  have hstep := h.next
  have hresting : (∀ a ∈ attemptsMade past, a.1 = pid → isFinished past a = true) →
      attemptBy (.ran pid step) = none →
      ∀ a ∈ attemptsMade (.ran pid step :: past), a.1 = pid →
        isFinished (.ran pid step :: past) a = true :=
    fun hrest hnone => rest_after (fun a ha hq => isFinished_later (hrest a ha hq)) hnone
  have hrests : ∀ {ph : DeliveryPhase τ}, ph.Resting → LeaseHeld step.before past pid ph →
      ∀ a ∈ attemptsMade past, a.1 = pid → isFinished past a = true := by
    intro ph hph hheld
    cases ph with
    | idle | read => exact hheld
    | passed | claimed | started | answered => cases hph
  have houtcome : ∀ {u : NotificationDeliveryUpdate τ} {call : DeliveryCall τ}
      {tenantId id : String} {v : Nat} {res : Except JsError (Option (NotificationDelivery τ))}
      {before after : World τ}, u.attemptCount = none →
      attemptBy (.ran pid ⟨call, .notifications (.updateDelivery tenantId id v u), res, before,
        after⟩) = none := by
    intro u call tenantId id v res before after hu
    have hfinish : finishBy (.ran pid ⟨call, .notifications (.updateDelivery tenantId id v u), res,
        before, after⟩) = some (pid, (id, v)) := by simp [finishBy, hu]
    exact attemptBy_of_finishBy hfinish
  cases hstep with
  | plain hop => exact h.own_plain hop
  | get hph =>
    have hrest := hresting (hrests hph hown) rfl
    split <;> exact hrest
  | guard =>
    have hrest := hresting hown rfl
    split <;> exact hrest
  | create hph => exact hresting (hrests hph hown) rfl
  | erase hph => exact hresting (hrests hph hown) rfl
  | reject hu => exact hresting hown (houtcome hu.attemptCount)
  | retry => exact hresting hown (houtcome rfl)
  | claim =>
    rename_i call tenantId delivery t res before after
    match res with
    | .error e => exact hresting hown rfl
    | .ok none => exact hresting hown rfl
    | .ok (some claimed) => exact h.own_claim rfl
  | start =>
    rename_i call item delivery res before after
    obtain ⟨hcurrent, huncalled, hunanswered, hget, -⟩ := hown
    have hcall : AppOp.exec (.host (.startChannel item delivery)) choice before =
        some (res, after) := hexec
    have hw := host_world hcall
    refine ⟨hcurrent.later rfl rfl, before.clock, ⟨mem_filterMap_cons.mpr (.inl rfl), ?_⟩,
      hunanswered, ?_⟩
    · intro made hmem hof
      rcases mem_filterMap_cons.mp hmem with hnow | hold
      · obtain rfl := Option.some.inj hnow
        rfl
      · rw [huncalled made hold] at hof
        cases hof
    · left
      rw [hw]
      exact hget
  | settle =>
    rename_i call delivery res before after
    obtain ⟨hcurrent, t, hcalled, hunanswered, hstored⟩ := hown
    have hcall : AppOp.exec (.host (.awaitChannel delivery)) choice before =
        some (res, after) := hexec
    have hw := host_world hcall
    have hof : ChannelMoment.isOf ⟨pid, delivery, before.clock⟩ (pid, delivery) = true :=
      ChannelMoment.isOf_iff.mpr ⟨rfl, rfl⟩
    refine ⟨hcurrent.later rfl rfl, t, ⟨mem_filterMap_cons.mpr (.inr hcalled.mem), ?_⟩,
      isAnswered_iff.mpr ⟨_, mem_filterMap_cons.mpr (.inl rfl), hof⟩, ?_⟩
    · intro made hmem hof
      rcases mem_filterMap_cons.mp hmem with hnow | hold
      · cases hnow
      · exact hcalled.only made hold hof
    · rw [hw]
      rcases hstored with hget | hover
      · exact .inl hget
      · -- the only answer is this one, and it is late
        refine .inr ⟨hover, List.any_eq_false.mpr fun x hx => ?_⟩
        rcases mem_filterMap_cons.mp hx with hnow | hold
        · obtain rfl := Option.some.inj hnow
          simp [hover]
        · have hnot : x.isOf (pid, delivery) = false := by
            refine Bool.eq_false_of_not_eq_true fun hof => ?_
            rw [isAnswered_iff.mpr ⟨x, hold, hof⟩] at hunanswered
            cases hunanswered
          simp [hnot]
  | finish hu =>
    rename_i call delivery delivered u res before after
    obtain ⟨hcurrent, -⟩ := hown
    refine rest_after (fun a ha hq => ?_) (houtcome hu.attemptCount)
    by_cases heq : a = (pid, delivery)
    · rw [heq]
      exact isFinished_cons.mpr (.inl (by simp [finishBy, hu.attemptCount, NotificationDelivery.record]))
    · exact isFinished_later (hcurrent.others a ha hq heq)

end taken

/-! ## The invariant along the protocol -/

theorem AttemptGone.later {past : (deliveryPlatform τ).History} {now now' : τ}
    {a : DeliveryAttempt τ} (h : AttemptGone past now a) (hle : now ≤ now') :
    AttemptGone past now' a := by
  rcases h with hfinished | hcalls
  · exact .inl hfinished
  · obtain ⟨hsome, hall⟩ := callsAll_iff.mp hcalls
    exact .inr (callsAll_iff.mpr ⟨hsome, fun call hmem hof => leaseOver_mono (hall call hmem hof) hle⟩)

theorem AttemptGone.stop {past : (deliveryPlatform τ).History} {now : τ} {a : DeliveryAttempt τ}
    (h : AttemptGone past now a) (pid : Nat) (call : DeliveryCall τ) :
    AttemptGone (.stopped pid call :: past) now a := by
  rcases h with hfinished | hcalls
  · exact .inl (isFinished_later hfinished)
  · obtain ⟨hsome, hall⟩ := callsAll_iff.mp hcalls
    refine .inr (callsAll_iff.mpr ⟨?_, hall⟩)
    rcases hsome with hstopped | hcalled
    · exact .inl (Bool.or_eq_true_iff.mpr (.inr hstopped))
    · exact .inr hcalled

theorem LeasesKept.stop {w : World τ} {past : (deliveryPlatform τ).History} (h : LeasesKept w past)
    (pid : Nat) (call : DeliveryCall τ) : LeasesKept w (.stopped pid call :: past) where
  held a ha := (h.held a ha).stop _
  distinct := h.distinct
  dated := h.dated
  superseded a ha b hb hid hlt := (h.superseded a ha b hb hid hlt).stop pid call
  finished a ha hfinished := by
    rcases isFinished_cons.mp hfinished with hnow | hpast
    · cases hnow
    · exact isAnswered_later (h.finished a ha hpast)
  finishes f hf := by
    obtain ⟨x, hx, hrecord⟩ := h.finishes f hf
    exact ⟨x, hx.stop _, hrecord⟩
  calls := h.calls
  answers := h.answers
  done id hdone := by
    obtain ⟨hall, x, hx, hid⟩ := h.done id hdone
    exact ⟨hall, x, hx.stop _, hid⟩
  apart := ⟨rfl, h.apart⟩
  counts := ⟨rfl, h.counts⟩
  again := ⟨rfl, h.again⟩

theorem LeasesKept.env {w w' : World τ} {past : (deliveryPlatform τ).History}
    (h : LeasesKept w past) (hclock : w.clock ≤ w'.clock)
    (hsame : w'.notifications = w.notifications) : LeasesKept w' past where
  held a ha := (h.held a ha).env hclock hsame
  distinct := h.distinct
  dated := by
    rw [hsame]
    exact h.dated
  superseded a ha b hb hid hlt := (h.superseded a ha b hb hid hlt).later hclock
  finished := h.finished
  finishes f hf := by
    obtain ⟨x, hx, hrecord⟩ := h.finishes f hf
    exact ⟨x, hx.env hclock hsame, hrecord⟩
  calls := h.calls
  answers := h.answers
  done id hdone := by
    rw [hsame]
    obtain ⟨hall, x, hx, hid⟩ := h.done id hdone
    exact ⟨hall, x, hx.env hclock hsame, hid⟩
  apart := h.apart
  counts := h.counts
  again := h.again

theorem LeaseHeld.env {w w' : World τ} {past : (deliveryPlatform τ).History} {pid : Nat}
    {ph : DeliveryPhase τ} (h : LeaseHeld w past pid ph) (hclock : w.clock ≤ w'.clock)
    (hsame : w'.notifications = w.notifications) : LeaseHeld w' past pid ph := by
  cases ph with
  | idle | read | passed => exact h
  | claimed delivery =>
    obtain ⟨hcurrent, huncalled, hunanswered, hget, hdone⟩ := h
    exact ⟨hcurrent, huncalled, hunanswered, by rw [hsame]; exact hget, hdone⟩
  | started delivery =>
    obtain ⟨hcurrent, t, hcalled, hunanswered, hstored⟩ := h
    refine ⟨hcurrent, t, hcalled, hunanswered, ?_⟩
    rw [hsame]
    exact hstored.imp_right fun hover => leaseOver_mono hover hclock
  | answered delivery delivered =>
    obtain ⟨hcurrent, t, hcalled, hanswered, hstored⟩ := h
    refine ⟨hcurrent, t, hcalled, hanswered, ?_⟩
    rw [hsame]
    exact hstored.imp_right fun hover => ⟨leaseOver_mono hover.1 hclock, hover.2⟩

theorem leases_local [LawfulTimestamp τ] :
    (deliveryProtocol τ).LocalOver LeaseTested LeaseBase LeasesKept LeaseHeld where
  spawn call _ hfresh a ha hpid := by
    obtain ⟨e, he, hattempt⟩ := List.mem_filterMap.mp ha
    match e with
    | .stopped _ _ => cases hattempt
    | .ran q step =>
      have hq : q ≠ _ := hfresh q step he
      unfold attemptBy at hattempt
      split at hattempt
      · next heq =>
        cases heq
        split at hattempt
        · obtain rfl := Option.some.inj hattempt
          exact absurd hpid hq
        · cases hattempt
      · cases hattempt
  good h := LeaseTaken.good_after h
  own h := LeaseTaken.own_after h
  other h hne hq := LeaseTaken.other h hne hq
  stopGood h _ := h.stop _ _
  stopOther {w past pid call q phq} _ h := by
    refine h.silent (.of_none rfl rfl rfl rfl) rfl rfl ?_
    rintro delivery rfl
    exact h.2.2.2.2
  envGood move h henv := h.env (deliveryEnv_cases henv).1 (deliveryEnv_cases henv).2
  envSound move _ h henv := h.env (deliveryEnv_cases henv).1 (deliveryEnv_cases henv).2

/-! ## The guarantee -/

/-- A service that schedules retries. -/
def retryingService : NotificationService Nat where
  jobs := some { authority := none }
  stableUuid := "/".intercalate

/-- A notification whose first attempt fails: its delivery waits for a retry. -/
def failedOnce : List (deliveryPlatform Nat).Action :=
  .spawn ⟨retryingService, .notify reminder "app" none 0⟩ :: replying 0 [
    .proceed, .draw "n1", .proceed, .draw "a1", .proceed, .proceed, .proceed,
    .proceed, .proceed, .proceed, .proceed, .proceed, .channel (.ok (.failed "busy" none)),
    .proceed, .proceed, .proceed, .draw "j1", .proceed, .proceed, .draw "a2", .proceed,
    .draw "a3", .proceed, .proceed, .proceed, .proceed, .proceed]

/-- An attempt of the delivery, up to the call of the channel. -/
def retriedBy (pid : Nat) : List (deliveryPlatform Nat).Action :=
  .spawn ⟨retryingService, .attemptDelivery "acme" "delivery/n1/in-app" .scheduled⟩ ::
    replying pid [.proceed, .proceed, .proceed, .proceed, .proceed]

/-- When the retry is due, two processes attempt it; the first delivers, and writes. -/
def overlappingRetries : List (deliveryPlatform Nat).Action :=
  failedOnce ++ [.env (.tick 40000)] ++ retriedBy 1 ++ retriedBy 2 ++
    replying 1 [.channel (.ok (.delivered none)), .proceed, .proceed]

end AppPort
