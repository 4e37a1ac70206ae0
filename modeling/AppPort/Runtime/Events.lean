import Mathlib.Data.List.Basic

/-!
# Events and their subscribers

`AppPortEvents`: events are numbered as they are published, a bounded history of them is
retained, and a subscriber is handed the retained events it asks for and then every event
that is published until it is closed. Handlers neither throw nor call back, so a call is
what it changes and the handler calls it makes, in order.

The set of subscribers holds the closures `subscribe` creates; a closure is told apart
here by the number of subscriptions before it.
-/

namespace AppPort

/-- A number, as far as it is compared with natural ones. -/
inductive ComparedNumber where
  | finite (value : Rat)
  | infinity
  | negInfinity
  | nan

/-- `n > x`. -/
def ComparedNumber.below (x : ComparedNumber) (n : Nat) : Bool :=
  match x with
  | .finite value => decide (value < (n : Rat))
  | .negInfinity => true
  | .infinity | .nan => false

structure AppPortEvent (δ : Type) where
  id : Nat
  type : String
  tenantId : String
  data : δ
  timestamp : String

/-- The options of `subscribe`. -/
structure SubscribeOptions where
  tenantId : Option String := none
  type : Option String := none
  after : Option ComparedNumber := none

/-- `!option || value === option`. -/
def admits (option : Option String) (value : String) : Bool :=
  option.all fun wanted => wanted == "" || value == wanted

section events

variable {δ : Type}

/-- The filter of a subscriber. -/
def SubscribeOptions.matches (options : SubscribeOptions) (event : AppPortEvent δ) : Bool :=
  admits options.tenantId event.tenantId && admits options.type event.type

/-- `event.id > (options.after ?? this.sequence)`. -/
def SubscribeOptions.replays (options : SubscribeOptions) (sequence : Nat)
    (event : AppPortEvent δ) : Bool :=
  match options.after with
  | some after => after.below event.id
  | none => decide (sequence < event.id)

/-- The closure `deliver` of one `subscribe`. -/
structure Subscriber where
  key : Nat
  options : SubscribeOptions

/-- The handler calls `deliver` makes for an event: who is called, and with what. -/
def Subscriber.deliver (subscriber : Subscriber) (event : AppPortEvent δ) :
    List (Nat × AppPortEvent δ) :=
  if subscriber.options.matches event then [(subscriber.key, event)] else []

structure AppPortEvents (δ : Type) where
  maxHistory : ComparedNumber
  sequence : Nat := 0
  history : List (AppPortEvent δ) := []
  subscribers : List Subscriber := []
  /-- How many subscriptions there have been. -/
  subscriptions : Nat := 0

/-- What is called on the events; a subscription is closed by its key. -/
inductive EventCall (δ : Type) where
  | publish (type : String) (data : δ) (tenantId timestamp : String)
  | subscribe (options : SubscribeOptions)
  | closeSubscription (key : Nat)
  | close

namespace AppPortEvents

variable (events : AppPortEvents δ)

/-- The event `publish` makes. -/
def nextEvent (type : String) (data : δ) (tenantId timestamp : String) : AppPortEvent δ :=
  { id := events.sequence + 1, type, tenantId, data, timestamp }

def publish (type : String) (data : δ) (tenantId timestamp : String) :
    AppPortEvents δ × List (Nat × AppPortEvent δ) :=
  let event := events.nextEvent type data tenantId timestamp
  let history := events.history ++ [event]
  ({ events with
      sequence := events.sequence + 1
      history := if events.maxHistory.below history.length then history.drop 1 else history },
    events.subscribers.flatMap (·.deliver event))

def subscribe (options : SubscribeOptions) : AppPortEvents δ × List (Nat × AppPortEvent δ) :=
  let subscriber : Subscriber := { key := events.subscriptions, options }
  ({ events with
      subscribers := events.subscribers ++ [subscriber]
      subscriptions := events.subscriptions + 1 },
    (events.history.filter (options.replays events.sequence)).flatMap subscriber.deliver)

/-- `EventSubscription.close`. -/
def closeSubscription (key : Nat) : AppPortEvents δ :=
  { events with subscribers := events.subscribers.filter (·.key ≠ key) }

def close : AppPortEvents δ := { events with subscribers := [] }

/-- One call: the events after it and the handler calls it makes. -/
def perform : EventCall δ → AppPortEvents δ × List (Nat × AppPortEvent δ)
  | .publish type data tenantId timestamp => events.publish type data tenantId timestamp
  | .subscribe options => events.subscribe options
  | .closeSubscription key => (events.closeSubscription key, [])
  | .close => (events.close, [])

end AppPortEvents

/-- A sequence of calls, with all handler calls in order. -/
def runEvents (events : AppPortEvents δ) : List (EventCall δ) →
    AppPortEvents δ × List (Nat × AppPortEvent δ)
  | [] => (events, [])
  | call :: calls =>
    let result := events.perform call
    let rest := runEvents result.1 calls
    (rest.1, result.2 ++ rest.2)

/-- What the handler of one subscription has been called with. -/
def received (key : Nat) (handled : List (Nat × AppPortEvent δ)) : List (AppPortEvent δ) :=
  (handled.filter fun call => call.1 == key).map Prod.snd

/-- The events that calls publish, from a sequence number on. -/
def published (sequence : Nat) : List (EventCall δ) → List (AppPortEvent δ)
  | [] => []
  | .publish type data tenantId timestamp :: calls =>
    { id := sequence + 1, type, tenantId, data, timestamp } :: published (sequence + 1) calls
  | _ :: calls => published sequence calls

/-- The calls that close a subscription. -/
def EventCall.closes (key : Nat) : EventCall δ → Bool
  | .closeSubscription closed => closed == key
  | .close => true
  | .publish _ _ _ _ | .subscribe _ => false

/-! ## What each subscription is handed -/

@[simp] theorem received_nil (key : Nat) :
    received key ([] : List (Nat × AppPortEvent δ)) = [] := rfl

@[simp] theorem received_append (key : Nat) (xs ys : List (Nat × AppPortEvent δ)) :
    received key (xs ++ ys) = received key xs ++ received key ys := by
  simp [received]

theorem received_deliver_self (subscriber : Subscriber) (event : AppPortEvent δ) :
    received subscriber.key (subscriber.deliver event) =
      [event].filter subscriber.options.matches := by
  by_cases hmatches : subscriber.options.matches event
  · simp [received, Subscriber.deliver, hmatches]
  · simp [received, Subscriber.deliver, hmatches]

theorem received_deliver_other {key : Nat} {subscriber : Subscriber} (hne : subscriber.key ≠ key)
    (event : AppPortEvent δ) : received key (subscriber.deliver event) = [] := by
  by_cases hmatches : subscriber.options.matches event
  · simp [received, Subscriber.deliver, hmatches, hne]
  · simp [received, Subscriber.deliver, hmatches]

theorem received_replay_self (subscriber : Subscriber) (history : List (AppPortEvent δ)) :
    received subscriber.key (history.flatMap subscriber.deliver) =
      history.filter subscriber.options.matches := by
  induction history with
  | nil => rfl
  | cons event history ih =>
    rw [List.flatMap_cons, received_append, ih, received_deliver_self, ← List.filter_append]
    rfl

theorem received_replay_other {key : Nat} {subscriber : Subscriber} (hne : subscriber.key ≠ key)
    (history : List (AppPortEvent δ)) : received key (history.flatMap subscriber.deliver) = [] := by
  induction history with
  | nil => rfl
  | cons event history ih =>
    rw [List.flatMap_cons, received_append, ih, received_deliver_other hne]
    rfl

/-- A live event reaches no closed subscription. -/
theorem received_live_absent {key : Nat} {subscribers : List Subscriber}
    (habsent : ∀ s ∈ subscribers, s.key ≠ key) (event : AppPortEvent δ) :
    received key (subscribers.flatMap (·.deliver event)) = [] := by
  induction subscribers with
  | nil => rfl
  | cons s subscribers ih =>
    rw [List.flatMap_cons, received_append,
      received_deliver_other (habsent s List.mem_cons_self) event,
      ih (fun s' hs' => habsent s' (List.mem_cons_of_mem _ hs'))]
    rfl

/-- A live event reaches an open subscription once, if it matches. -/
theorem received_live_present {subscriber : Subscriber} {subscribers : List Subscriber}
    (hdistinct : subscribers.Pairwise fun s s' => s.key ≠ s'.key)
    (hmem : subscriber ∈ subscribers) (event : AppPortEvent δ) :
    received subscriber.key (subscribers.flatMap (·.deliver event)) =
      [event].filter subscriber.options.matches := by
  induction subscribers with
  | nil => cases hmem
  | cons s subscribers ih =>
    obtain ⟨hhead, htail⟩ := List.pairwise_cons.mp hdistinct
    rw [List.flatMap_cons, received_append]
    rcases List.mem_cons.mp hmem with heq | hrest
    · have habsent : ∀ s' ∈ subscribers, s'.key ≠ subscriber.key := by
        intro s' hs'
        rw [heq]
        exact (hhead s' hs').symm
      rw [received_live_absent habsent, ← heq, received_deliver_self, List.append_nil]
    · rw [received_deliver_other (hhead subscriber hrest), ih htail hrest]
      rfl

/-! ## The order of the events -/

/-- **What holds between calls.** Closures are told apart by their keys, and the history
holds events in the order of their numbers, none of them beyond the sequence. -/
structure InSequence (events : AppPortEvents δ) : Prop where
  keyed : ∀ s ∈ events.subscribers, s.key < events.subscriptions
  distinct : events.subscribers.Pairwise fun s s' => s.key ≠ s'.key
  numbered : events.history.Pairwise fun e e' => e.id < e'.id
  past : ∀ e ∈ events.history, e.id ≤ events.sequence

theorem inSequence_init (maxHistory : ComparedNumber) :
    InSequence ({ maxHistory } : AppPortEvents δ) := by
  constructor
  · intro s hs
    cases hs
  · exact .nil
  · exact .nil
  · intro e he
    cases he

/-- The history after `publish` ends what was retained with the new event. -/
theorem publish_history_suffix (events : AppPortEvents δ) (type : String) (data : δ)
    (tenantId timestamp : String) :
    (events.publish type data tenantId timestamp).1.history <:+
      events.history ++ [events.nextEvent type data tenantId timestamp] := by
  simp only [AppPortEvents.publish]
  split
  · exact List.drop_suffix _ _
  · exact List.suffix_refl _

theorem InSequence.perform {events : AppPortEvents δ} (h : InSequence events)
    (call : EventCall δ) : InSequence (events.perform call).1 := by
  cases call with
  | publish type data tenantId timestamp =>
    have hsuffix := publish_history_suffix events type data tenantId timestamp
    have hnumbered : (events.history ++ [events.nextEvent type data tenantId timestamp]).Pairwise
        fun e e' => e.id < e'.id := by
      rw [List.pairwise_append]
      constructor
      · exact h.numbered
      · constructor
        · exact List.pairwise_singleton _ _
        · intro e he e' he'
          rw [List.mem_singleton.mp he']
          exact Nat.lt_succ_of_le (h.past e he)
    constructor
    · exact h.keyed
    · exact h.distinct
    · exact hnumbered.sublist hsuffix.sublist
    · intro e he
      rcases List.mem_append.mp (hsuffix.subset he) with hold | hnew
      · exact Nat.le_succ_of_le (h.past e hold)
      · rw [List.mem_singleton.mp hnew]
        exact Nat.le_refl _
  | subscribe options =>
    constructor
    · intro s hs
      rcases List.mem_append.mp hs with hold | hnew
      · exact Nat.lt_succ_of_lt (h.keyed s hold)
      · rw [List.mem_singleton.mp hnew]
        exact Nat.lt_succ_self _
    · show (events.subscribers ++ [_]).Pairwise _
      rw [List.pairwise_append]
      constructor
      · exact h.distinct
      · constructor
        · exact List.pairwise_singleton _ _
        · intro s hs s' hs'
          rw [List.mem_singleton.mp hs']
          exact Nat.ne_of_lt (h.keyed s hs)
    · exact h.numbered
    · exact h.past
  | closeSubscription key =>
    constructor
    · intro s hs
      exact h.keyed s (List.mem_of_mem_filter hs)
    · exact h.distinct.filter _
    · exact h.numbered
    · exact h.past
  | close =>
    constructor
    · intro s hs
      cases hs
    · exact .nil
    · exact h.numbered
    · exact h.past

theorem InSequence.run {events : AppPortEvents δ} (h : InSequence events)
    (calls : List (EventCall δ)) : InSequence (runEvents events calls).1 := by
  induction calls generalizing events with
  | nil => exact h
  | cons call calls ih => exact ih (h.perform call)

/-- What is published from a sequence number on is numbered beyond it, in order. -/
theorem published_numbered (sequence : Nat) (calls : List (EventCall δ)) :
    (∀ e ∈ published sequence calls, sequence < e.id) ∧
      (published sequence calls).Pairwise fun e e' => e.id < e'.id := by
  induction calls generalizing sequence with
  | nil => simp [published]
  | cons call calls ih =>
    cases call with
    | publish type data tenantId timestamp =>
      obtain ⟨hbeyond, hpairwise⟩ := ih (sequence + 1)
      constructor
      · intro e he
        rcases List.mem_cons.mp he with heq | hrest
        · rw [heq]
          exact Nat.lt_succ_self _
        · exact Nat.lt_of_succ_lt (hbeyond e hrest)
      · exact List.pairwise_cons.mpr ⟨hbeyond, hpairwise⟩
    | subscribe | closeSubscription | close => exact ih sequence

/-! ## Whole runs -/

theorem runEvents_append (events : AppPortEvents δ) (before after : List (EventCall δ)) :
    runEvents events (before ++ after) =
      ((runEvents (runEvents events before).1 after).1,
        (runEvents events before).2 ++ (runEvents (runEvents events before).1 after).2) := by
  induction before generalizing events with
  | nil => rfl
  | cons call before ih =>
    simp only [List.cons_append, runEvents, ih, List.append_assoc]

/-- A number that no subscription has yet, or whose subscription is closed, is not called. -/
theorem perform_absent {events : AppPortEvents δ} {key : Nat} {call : EventCall δ}
    (habsent : ∀ s ∈ events.subscribers, s.key ≠ key)
    (hsubscribe : ∀ options, call = .subscribe options → events.subscriptions ≠ key) :
    received key (events.perform call).2 = [] := by
  cases call with
  | publish type data tenantId timestamp => exact received_live_absent habsent _
  | subscribe options => exact received_replay_other (hsubscribe options rfl) _
  | closeSubscription | close => rfl

theorem subscriptions_le (events : AppPortEvents δ) (call : EventCall δ) :
    events.subscriptions ≤ (events.perform call).1.subscriptions := by
  cases call with
  | subscribe => exact Nat.le_succ _
  | publish | closeSubscription | close => exact Nat.le_refl _

/-- Before it is opened, a subscription is handed nothing. -/
theorem run_unopened {events : AppPortEvents δ} (h : InSequence events) {key : Nat}
    {calls : List (EventCall δ)} (hkey : (runEvents events calls).1.subscriptions ≤ key) :
    received key (runEvents events calls).2 = [] ∧ events.subscriptions ≤ key := by
  induction calls generalizing events with
  | nil => exact ⟨rfl, hkey⟩
  | cons call calls ih =>
    obtain ⟨hrest, hle⟩ := ih (h.perform call) hkey
    have hbefore : events.subscriptions ≤ key := Nat.le_trans (subscriptions_le events call) hle
    have habsent : ∀ s ∈ events.subscribers, s.key ≠ key := by
      intro s hs
      have hlt := h.keyed s hs
      omega
    have hsubscribe : ∀ options, call = .subscribe options → events.subscriptions ≠ key := by
      rintro options rfl
      exact Nat.ne_of_lt hle
    constructor
    · show received key ((events.perform call).2 ++ _) = []
      rw [received_append, perform_absent habsent hsubscribe, hrest]
      rfl
    · exact hbefore

/-- After it is closed, a subscription is handed nothing. -/
theorem run_closed {events : AppPortEvents δ} {key : Nat}
    (hpast : key < events.subscriptions) (habsent : ∀ s ∈ events.subscribers, s.key ≠ key)
    (calls : List (EventCall δ)) : received key (runEvents events calls).2 = [] := by
  induction calls generalizing events with
  | nil => rfl
  | cons call calls ih =>
    have hstep : ∀ s ∈ (events.perform call).1.subscribers, s.key ≠ key := by
      cases call with
      | publish => exact habsent
      | subscribe options =>
        intro s hs
        rcases List.mem_append.mp hs with hold | hnew
        · exact habsent s hold
        · rw [List.mem_singleton.mp hnew]
          exact Nat.ne_of_gt hpast
      | closeSubscription closed =>
        intro s hs
        exact habsent s (List.mem_of_mem_filter hs)
      | close =>
        intro s hs
        cases hs
    have hrest := ih (Nat.lt_of_lt_of_le hpast (subscriptions_le events call)) hstep
    show received key ((events.perform call).2 ++ _) = []
    rw [received_append, hrest, perform_absent habsent (fun _ _ => Nat.ne_of_gt hpast)]
    rfl

/-- **While it is open, a subscription is handed every matching event, once.** -/
theorem run_open {events : AppPortEvents δ} (h : InSequence events) {subscriber : Subscriber}
    (hmem : subscriber ∈ events.subscribers) (calls : List (EventCall δ)) :
    received subscriber.key (runEvents events calls).2 =
      (published events.sequence
        (calls.takeWhile fun call => !call.closes subscriber.key)).filter
          subscriber.options.matches := by
  induction calls generalizing events with
  | nil => rfl
  | cons call calls ih =>
    have hpast := h.keyed subscriber hmem
    show received subscriber.key ((events.perform call).2 ++ _) = _
    rw [received_append]
    cases call with
    | publish type data tenantId timestamp =>
      have hrest := ih (h.perform (.publish type data tenantId timestamp)) hmem
      rw [hrest]
      show received subscriber.key (events.subscribers.flatMap _) ++ _ = _
      rw [received_live_present h.distinct hmem, ← List.filter_append]
      rfl
    | subscribe options =>
      have hrest := ih (h.perform (.subscribe options)) (List.mem_append_left _ hmem)
      rw [hrest]
      show received subscriber.key (List.flatMap _ _) ++ _ = _
      rw [received_replay_other (Nat.ne_of_gt hpast)]
      rfl
    | closeSubscription closed =>
      by_cases hclosed : closed = subscriber.key
      · have habsent : ∀ s ∈ (events.closeSubscription closed).subscribers,
            s.key ≠ subscriber.key := by
          intro s hs
          rw [← hclosed]
          simpa using List.of_mem_filter hs
        have hopened : subscriber.key < (events.closeSubscription closed).subscriptions := hpast
        have hnone := run_closed hopened habsent calls
        simp only [AppPortEvents.perform, hnone]
        simp [EventCall.closes, hclosed, published]
      · have hstays : subscriber ∈ (events.closeSubscription closed).subscribers := by
          apply List.mem_filter.mpr
          simp [hmem, Ne.symm hclosed]
        have hrest := ih (h.perform (.closeSubscription closed)) hstays
        rw [hrest]
        simp [EventCall.closes, hclosed, published, AppPortEvents.perform,
          AppPortEvents.closeSubscription]
    | close =>
      have habsent : ∀ s ∈ events.close.subscribers, s.key ≠ subscriber.key := by
        intro s hs
        cases hs
      have hopened : subscriber.key < events.close.subscriptions := hpast
      have hnone := run_closed hopened habsent calls
      simp only [AppPortEvents.perform, hnone]
      simp [EventCall.closes, published]

/-- What is retained is the end of what was published. -/
theorem history_suffix (events : AppPortEvents δ) (calls : List (EventCall δ)) :
    (runEvents events calls).1.history <:+ events.history ++ published events.sequence calls := by
  induction calls generalizing events with
  | nil =>
    rw [published, List.append_nil]
    exact List.suffix_refl _
  | cons call calls ih =>
    have hrest := ih (events.perform call).1
    cases call with
    | publish type data tenantId timestamp =>
      obtain ⟨dropped, hsplit⟩ := publish_history_suffix events type data tenantId timestamp
      have hlater : (runEvents (events.publish type data tenantId timestamp).1 calls).1.history <:+
          (events.history ++ [events.nextEvent type data tenantId timestamp]) ++
            published (events.sequence + 1) calls := by
        rw [← hsplit, List.append_assoc]
        exact hrest.trans (List.suffix_append _ _)
      rw [List.append_assoc] at hlater
      exact hlater
    | subscribe | closeSubscription | close => exact hrest

/-- A subscription that asks for no replay is given none: the sequence is past the history. -/
theorem replays_none {events : AppPortEvents δ} (h : InSequence events) {options : SubscribeOptions}
    (hafter : options.after = none) :
    events.history.filter (options.replays events.sequence) = [] := by
  apply List.filter_eq_nil_iff.mpr
  intro e he
  have hpast := h.past e he
  simp [SubscribeOptions.replays, hafter, hpast]

/-- **What a subscriber receives.** Over any calls before and after it subscribes: the
retained events it asks for, and then the events published until it is closed, all of
them matching, in the order of their numbers and so each once. Without `after` nothing is
replayed. What is retained is the end of what was published before. -/
theorem subscriber_receives (maxHistory : ComparedNumber) (before after : List (EventCall δ))
    (options : SubscribeOptions) :
    let opened := (runEvents { maxHistory } before).1
    let key := opened.subscriptions
    let handed := received key
      (runEvents { maxHistory } (before ++ .subscribe options :: after)).2
    let live := published opened.sequence (after.takeWhile fun call => !call.closes key)
    (handed = (opened.history.filter (options.replays opened.sequence)).filter options.matches ++
        live.filter options.matches) ∧
      handed.Pairwise (fun e e' => e.id < e'.id) ∧
      (options.after = none → handed = live.filter options.matches) ∧
      opened.history <:+ published 0 before := by
  intro opened key handed live
  have hopened : InSequence opened := (inSequence_init maxHistory).run before
  have hhanded : handed =
      (opened.history.filter (options.replays opened.sequence)).filter options.matches ++
        live.filter options.matches := by
    obtain ⟨hunopened, -⟩ := run_unopened (inSequence_init maxHistory) (Nat.le_refl key)
    have hmem : { key, options } ∈ (opened.perform (.subscribe options)).1.subscribers :=
      List.mem_append_right _ (List.mem_singleton.mpr rfl)
    have hlive := run_open (hopened.perform (.subscribe options)) hmem after
    have hreplay : received key (opened.subscribe options).2 =
        (opened.history.filter (options.replays opened.sequence)).filter options.matches :=
      received_replay_self { key, options } _
    show received key (runEvents { maxHistory } (before ++ .subscribe options :: after)).2 = _
    rw [runEvents_append, received_append, hunopened, List.nil_append, ← hreplay]
    show received key ((opened.subscribe options).2 ++ _) = _
    rw [received_append]
    exact congrArg _ hlive
  constructor
  · exact hhanded
  constructor
  · obtain ⟨hbeyond, hnumbered⟩ := published_numbered opened.sequence
      (after.takeWhile fun call => !call.closes key)
    rw [hhanded, List.pairwise_append]
    constructor
    · exact (hopened.numbered.filter _).filter _
    · constructor
      · exact hnumbered.filter _
      · intro e he e' he'
        have hpast := hopened.past e (List.mem_of_mem_filter (List.mem_of_mem_filter he))
        have hlater := hbeyond e' (List.mem_of_mem_filter he')
        omega
  constructor
  · intro hafter
    rw [hhanded, replays_none hopened hafter]
    rfl
  · exact history_suffix { maxHistory } before

end events

end AppPort
