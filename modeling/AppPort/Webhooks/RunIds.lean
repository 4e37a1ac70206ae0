import AppPort.Jobs.RunIds
import AppPort.Webhooks.Deliveries

/-!
# Run ids of delivery attempts

`deliverWebhook` numbers an attempt as `executeJob` does a run, by the attempts that were
counted before it, and with the same gap: an attempt that is denied, or put back because
an authority was not available, is not counted, and neither is one that a replay resets.
-/

namespace AppPort

open Effects Effects.Platform

variable {τ : Type} [Timestamp τ] {node : NodeRuntime}

/-! ## Attempts and their ids -/

/-- The claims of the principal an attempt is made as. Only an attempt mints one. -/
def mintsAttempt : (webhookPlatform node τ).Step → Option PrincipalClaims
  | ⟨call, .authority (.mint claims _), _, _, _⟩ => if call.entry.delivers then some claims else none
  | _ => none

/-- The run ids of the attempts that began. -/
def attemptRunIds : (webhookPlatform node τ).History → List String
  | [] => []
  | .stopped _ _ :: past => attemptRunIds past
  | .ran _ step :: past => ((mintsAttempt step).bind PrincipalClaims.runId).toList ++ attemptRunIds past

/-- The delivery the step claims, when its process learns so. -/
def claimedDelivery : (webhookPlatform node τ).Step → Option (WebhookDelivery τ)
  | ⟨_, .webhooks (.claimDelivery _ _), .ok (some claimed), _, _⟩ => some claimed
  | _ => none

/-- The delivery a process claimed last. -/
def lastClaimed (pid : Nat) : (webhookPlatform node τ).History → Option (WebhookDelivery τ)
  | [] => none
  | .stopped _ _ :: past => lastClaimed pid past
  | .ran q step :: past =>
    if q = pid then claimedDelivery step <|> lastClaimed pid past else lastClaimed pid past

/-- The delivery an attempt of which begins with the step. -/
def begunDelivery (past : (webhookPlatform node τ).History) (pid : Nat)
    (step : (webhookPlatform node τ).Step) : Option (WebhookDelivery τ) :=
  if (mintsAttempt step).isSome then lastClaimed pid past else none

/-- An attempt of the delivery began. -/
def wasAttempted (id : String) : (webhookPlatform node τ).History → Bool
  | [] => false
  | .stopped _ _ :: past => wasAttempted id past
  | .ran pid step :: past =>
    (begunDelivery past pid step).any (fun d => d.id == id) || wasAttempted id past

/-- The step reads the delivery it is to attempt. -/
def readsAttempt (step : (webhookPlatform node τ).Step) : Bool :=
  match step.op with
  | .webhooks (.getDelivery _) => step.call.entry.delivers
  | _ => false

/-- The process has begun an attempt since it last read a delivery. -/
def attemptBegun (pid : Nat) : (webhookPlatform node τ).History → Bool
  | [] => false
  | .stopped _ _ :: past => attemptBegun pid past
  | .ran q step :: past =>
    if q = pid then !readsAttempt step && ((mintsAttempt step).isSome || attemptBegun pid past)
    else attemptBegun pid past

/-- The call changed the delivery under `id`. -/
def changedDelivery (id : String) (before after : World τ) : Bool :=
  (before.webhooks.deliveries.get id).map WebhookDelivery.version !=
    (after.webhooks.deliveries.get id).map WebhookDelivery.version

/-- The update the step writes to the delivery, when it writes one. -/
def writesDelivery (id : String) : (webhookPlatform node τ).Step → Option (DeliveryUpdate τ)
  | ⟨_, .webhooks (.updateDelivery key _ u), _, _, _⟩ => if key == id then some u else none
  | _ => none

/-- The step resets the delivery: only a replay writes `pending` into one. -/
def replays (id : String) (step : (webhookPlatform node τ).Step) : Bool :=
  (writesDelivery id step).any (fun u => u.status == some .pending) &&
    changedDelivery id step.before step.after

/-- The step inserts the delivery under `id`. -/
def insertsDelivery (id : String) (step : (webhookPlatform node τ).Step) : Bool :=
  (step.before.webhooks.deliveries.get id).isNone && (step.after.webhooks.deliveries.get id).isSome

/-- The step claims the delivery, and its process learns so. -/
def claimsDelivery (id : String) : (webhookPlatform node τ).Step → Bool
  | ⟨_, .webhooks (.claimDelivery key _), .ok (some _), _, _⟩ => key == id
  | _ => false

/-- The delivery was settled without being counted, after an attempt of it began, and
nothing was counted since. -/
def attemptUncounted (id : String) : (webhookPlatform node τ).History → Bool
  | [] => false
  | .stopped _ _ :: past => attemptUncounted id past
  | .ran pid step :: past =>
    match writesDelivery id step with
    | none => attemptUncounted id past
    | some u =>
      if changedDelivery id step.before step.after then
        u.attemptCount.isNone && (attemptUncounted id past || attemptBegun pid past)
      else attemptUncounted id past

/-- The delivery was replayed after an attempt of it began. -/
def replayedAttempt (id : String) : (webhookPlatform node τ).History → Bool
  | [] => false
  | .stopped _ _ :: past => replayedAttempt id past
  | .ran _ step :: past => replayedAttempt id past || (replays id step && wasAttempted id past)

/-- The process claimed the delivery since it was created or last replayed, when no attempt
of it was left uncounted, and none began before a replay. -/
def attemptsFresh (pid : Nat) (id : String) : (webhookPlatform node τ).History → Bool
  | [] => false
  | .stopped _ _ :: past => attemptsFresh pid id past
  | .ran q step :: past =>
    if replays id step || insertsDelivery id step then false
    else if q = pid ∧ claimsDelivery id step = true then
      !attemptUncounted id past && !replayedAttempt id past
    else attemptsFresh pid id past

/-- **The condition.** An attempt begins under a claim that was made when every earlier
attempt at the delivery was counted, and when the delivery was not replayed after one. -/
def attemptsCounted (older : (webhookPlatform node τ).History) :
    (webhookPlatform node τ).Event → Bool
  | .ran pid step => (begunDelivery older pid step).all fun d => attemptsFresh pid d.id older
  | .stopped _ _ => true

/-! ## Their numbers -/

/-- The number of the attempt the step claims the delivery for. -/
def attemptClaimNumber (id : String) : (webhookPlatform node τ).Step → Option Nat
  | ⟨_, .webhooks (.claimDelivery key _), .ok (some d), _, _⟩ =>
    if key = id then some (d.attemptCount + 1) else none
  | _ => none

/-- The number of the attempt at the delivery that begins with the step. -/
def attemptNumber (id : String) (past : (webhookPlatform node τ).History) (pid : Nat)
    (step : (webhookPlatform node τ).Step) : Option Nat :=
  match begunDelivery past pid step with
  | some d => if d.id = id then some (d.attemptCount + 1) else none
  | none => none

/-- The number of the attempt the step settles without counting it. -/
def attemptPutBackNumber (id : String) (step : (webhookPlatform node τ).Step) : Option Nat :=
  match writesDelivery id step, step.before.webhooks.deliveries.get id with
  | some u, some d =>
    if u.attemptCount.isNone && changedDelivery id step.before step.after then
      some (d.attemptCount + 1)
    else none
  | _, _ => none

def attemptAct (id : String) (past : (webhookPlatform node τ).History) (pid : Nat)
    (step : (webhookPlatform node τ).Step) : RunAct :=
  if replays id step || insertsDelivery id step then .renewed
  else
    match attemptClaimNumber id step, attemptNumber id past pid step, attemptPutBackNumber id step with
    | some n, _, _ => .claimed n
    | _, some n, _ => .started n
    | _, _, some n => .putBack n
    | none, none, none => .other

/-- The numbers of the attempts at a delivery. -/
def attemptsOf (id : String) : (webhookPlatform node τ).History → Numbering
  | [] => {}
  | .stopped _ _ :: past => attemptsOf id past
  | .ran pid step :: past =>
    match attemptAct id past pid step with
    | .renewed => (attemptsOf id past).void
    | .claimed n =>
      if attemptUncounted id past || replayedAttempt id past then attemptsOf id past
      else (attemptsOf id past).take pid n
    | .started n => (attemptsOf id past).use pid n
    | .putBack n => (attemptsOf id past).drop pid n
    | .other => attemptsOf id past

/-- The delivery's counter: someone is busy while it is being delivered. -/
def WebhookDelivery.counter (d : WebhookDelivery τ) : Numbering.Counter :=
  ⟨d.attemptCount, d.status == .delivering⟩

section step

variable {id : String} {past : (webhookPlatform node τ).History} {pid : Nat}
  {step : (webhookPlatform node τ).Step} {choice : Choice}

omit [Timestamp τ] in
theorem changedDelivery_of_same {w w' : World τ}
    (h : w'.webhooks.deliveries.get id = w.webhooks.deliveries.get id) :
    changedDelivery id w w' = false := by
  simp [changedDelivery, h]

theorem attemptNumber_eq_some {n : Nat} (h : attemptNumber id past pid step = some n) :
    ∃ d, begunDelivery past pid step = some d ∧ d.id = id ∧ n = d.attemptCount + 1 := by
  unfold attemptNumber at h
  split at h
  · next d hd =>
    split at h
    · next hid =>
      obtain rfl := Option.some.inj h
      exact ⟨d, hd, hid, rfl⟩
    · cases h
  · cases h

theorem attemptNumber_of_act {n : Nat} (h : attemptAct id past pid step = .started n) :
    attemptNumber id past pid step = some n := by
  unfold attemptAct at h
  split at h
  · cases h
  split at h
  · cases h
  · next hstart _ =>
    cases h
    exact hstart
  · cases h
  · cases h

theorem attemptPutBackNumber_of_act {n : Nat} (h : attemptAct id past pid step = .putBack n) :
    attemptPutBackNumber id step = some n := by
  unfold attemptAct at h
  split at h
  · cases h
  split at h
  · cases h
  · cases h
  · next hput _ _ =>
    cases h
    exact hput
  · cases h

variable (past pid) in
/-- A call that leaves the delivery alone is at most the beginning of an attempt. -/
theorem attemptAct_of_unchanged
    (hexec : AppOp.exec step.op choice step.before = some (step.res, step.after))
    (h : step.after.webhooks.deliveries.get id = step.before.webhooks.deliveries.get id) :
    (attemptAct id past pid step = .other ∧ attemptNumber id past pid step = none ∨
      ∃ n, attemptNumber id past pid step = some n ∧ attemptAct id past pid step = .started n) ∧
      attemptUncounted id (.ran pid step :: past) = attemptUncounted id past ∧
      replayedAttempt id (.ran pid step :: past) = replayedAttempt id past := by
  have hchanged : changedDelivery id step.before step.after = false := changedDelivery_of_same h
  have hreplays : replays id step = false := by simp [replays, hchanged]
  have hinserts : insertsDelivery id step = false := by
    simp only [insertsDelivery, h]
    cases step.before.webhooks.deliveries.get id <;> rfl
  have hclaim : attemptClaimNumber id step = none := by
    unfold attemptClaimNumber
    split
    · next call key v d before after =>
      refine if_neg ?_
      rintro rfl
      obtain ⟨old, hget, -, hnew, hget'⟩ := exec_claimDelivery hexec
      have hold : before.webhooks.deliveries.get key = some old := hget
      have hsame : some d = some old := by
        rw [← hold]
        exact hget'.symm.trans h
      have hversion := congrArg WebhookDelivery.version (Option.some.inj hsame)
      rw [hnew, written_delivery_version] at hversion
      omega
    · rfl
  have hput : attemptPutBackNumber id step = none := by
    unfold attemptPutBackNumber
    split
    · rw [hchanged, Bool.and_false]
      rfl
    · rfl
  refine ⟨?_, ?_, ?_⟩
  · cases hstart : attemptNumber id past pid step with
    | none => exact .inl ⟨by simp [attemptAct, hreplays, hinserts, hclaim, hstart, hput], rfl⟩
    | some n => exact .inr ⟨n, rfl, by simp [attemptAct, hreplays, hinserts, hclaim, hstart]⟩
  · simp only [attemptUncounted]
    split
    · rfl
    · rw [hchanged]
      rfl
  · simp [replayedAttempt, hreplays]

variable (past pid) in
/-- What a conditional update that goes through is to the attempts at its delivery. -/
theorem attemptAct_update {v : Nat} {u : DeliveryUpdate τ} {d : WebhookDelivery τ}
    (hop : step.op = .webhooks (.updateDelivery id v u))
    (hold : step.before.webhooks.deliveries.get id = some d)
    (hnew : step.after.webhooks.deliveries.get id = some (u.written d)) :
    (attemptAct id past pid step = if u.status = some .pending then .renewed
      else if u.attemptCount = none then .putBack (d.attemptCount + 1) else .other) ∧
    attemptUncounted id (.ran pid step :: past) =
      (u.attemptCount.isNone && (attemptUncounted id past || attemptBegun pid past)) ∧
    replayedAttempt id (.ran pid step :: past) =
      (replayedAttempt id past || (u.status == some .pending && wasAttempted id past)) := by
  obtain ⟨call, op, res, before, after⟩ := step
  subst hop
  replace hold : before.webhooks.deliveries.get id = some d := hold
  replace hnew : after.webhooks.deliveries.get id = some (u.written d) := hnew
  have hchanged : changedDelivery id before after = true := by simp [changedDelivery, hold, hnew]
  refine ⟨?_, ?_, ?_⟩
  · by_cases hp : u.status = some .pending
    · simp [attemptAct, replays, writesDelivery, hp, hchanged]
    · by_cases hc : u.attemptCount = none
      · simp [attemptAct, replays, insertsDelivery, attemptClaimNumber, attemptNumber, begunDelivery,
          mintsAttempt, attemptPutBackNumber, writesDelivery, hp, hc, hchanged, hold]
      · simp [attemptAct, replays, insertsDelivery, attemptClaimNumber, attemptNumber, begunDelivery,
          mintsAttempt, attemptPutBackNumber, writesDelivery, hp, hc, hold]
  · simp [attemptUncounted, writesDelivery, hchanged]
  · simp [replayedAttempt, replays, writesDelivery, hchanged]

variable (past pid) in
/-- What a claim is to the attempts at its delivery. -/
theorem attemptAct_claim {v : Nat} {d : WebhookDelivery τ}
    (hop : step.op = .webhooks (.claimDelivery id v))
    (hold : step.before.webhooks.deliveries.get id = some d)
    (hexec : AppOp.exec step.op choice step.before = some (step.res, step.after)) :
    (attemptAct id past pid step = .other ∨
      attemptAct id past pid step = .claimed (d.attemptCount + 1) ∧ claimsDelivery id step = true) ∧
    attemptUncounted id (.ran pid step :: past) = attemptUncounted id past ∧
    replayedAttempt id (.ran pid step :: past) = replayedAttempt id past := by
  obtain ⟨call, op, res, before, after⟩ := step
  subst hop
  replace hold : before.webhooks.deliveries.get id = some d := hold
  refine ⟨?_, rfl, ?_⟩
  · rcases res with e | ⟨_ | claimed⟩
    · exact .inl (by simp [attemptAct, replays, insertsDelivery, attemptClaimNumber, attemptNumber,
        begunDelivery, mintsAttempt, attemptPutBackNumber, writesDelivery, hold])
    · exact .inl (by simp [attemptAct, replays, insertsDelivery, attemptClaimNumber, attemptNumber,
        begunDelivery, mintsAttempt, attemptPutBackNumber, writesDelivery, hold])
    · right
      obtain ⟨old, hget, -, hnew, -⟩ := exec_claimDelivery hexec
      have hget : before.webhooks.deliveries.get id = some old := hget
      rw [hget] at hold
      obtain rfl := Option.some.inj hold
      simp [attemptAct, replays, insertsDelivery, writesDelivery, attemptClaimNumber, claimsDelivery,
        hget, hnew, claimDeliveryUpdate]
  · simp [replayedAttempt, replays, writesDelivery]

/-- A claim that is fresh after a step was, unless it is this one. -/
theorem attemptsFresh_cons {q : Nat} (h : attemptsFresh q id (.ran pid step :: past) = true) :
    attemptAct id past pid step ≠ .renewed ∧
      (q = pid ∧ claimsDelivery id step = true →
        attemptUncounted id past = false ∧ replayedAttempt id past = false) ∧
      (¬ (q = pid ∧ claimsDelivery id step = true) → attemptsFresh q id past = true) := by
  simp only [attemptsFresh] at h
  split at h
  · cases h
  · next hrenewed =>
    refine ⟨?_, ?_⟩
    · intro hact
      rw [attemptAct, if_neg hrenewed] at hact
      split at hact <;> cases hact
    · split at h
      · next hq =>
        rw [Bool.and_eq_true, Bool.not_eq_true', Bool.not_eq_true'] at h
        exact ⟨fun _ => h, fun hnot => absurd ⟨hq.1.symm, hq.2⟩ hnot⟩
      · next hq =>
        exact ⟨fun hboth => absurd ⟨hboth.1.symm, hboth.2⟩ hq, fun _ => h⟩

/-- A number that is out stays out, whatever others do. -/
theorem attemptsOut_cons {q m : Nat} (h : (q, m) ∈ (attemptsOf id past).out)
    (hact : attemptAct id past pid step ≠ .renewed)
    (hq : q ≠ pid ∨ attemptNumber id past pid step = none ∧ attemptPutBackNumber id step = none) :
    (q, m) ∈ (attemptsOf id (.ran pid step :: past)).out := by
  have hne : ∀ n, attemptNumber id past pid step = some n ∨ attemptPutBackNumber id step = some n →
      (q, m) ≠ (pid, n) := by
    intro n hn heq
    rcases hq with hq | ⟨hstart, hput⟩
    · exact hq (congrArg Prod.fst heq)
    · rw [hstart, hput] at hn
      rcases hn with hn | hn <;> cases hn
  cases hcase : attemptAct id past pid step with
  | renewed => exact absurd hcase hact
  | claimed n =>
    simp only [attemptsOf, hcase]
    split
    · exact h
    · exact List.mem_cons_of_mem _ h
  | started n =>
    simp only [attemptsOf, hcase]
    exact (List.mem_erase_of_ne (hne n (.inl (attemptNumber_of_act hcase)))).mpr h
  | putBack n =>
    simp only [attemptsOf, hcase]
    exact (List.mem_erase_of_ne (hne n (.inr (attemptPutBackNumber_of_act hcase)))).mpr h
  | other =>
    simp only [attemptsOf, hcase]
    exact h

theorem attemptsUsed_cons {n : Nat} (h : n ∈ (attemptsOf id past).used) :
    n ∈ (attemptsOf id (.ran pid step :: past)).used := by
  simp only [attemptsOf]
  split
  · exact h
  · split
    · exact h
    · exact h
  · exact List.mem_cons_of_mem _ h
  · exact h
  · exact h

/-- Numbers are used by attempts that began. -/
theorem used_of_wasAttempted {id : String} {past : (webhookPlatform node τ).History}
    (h : wasAttempted id past = false) : (attemptsOf id past).used = [] := by
  induction past with
  | nil => rfl
  | cons e past ih =>
    cases e with
    | stopped pid call => exact ih h
    | ran pid step =>
      obtain ⟨hbegun, hpast⟩ := Bool.or_eq_false_iff.mp h
      have hused := ih hpast
      have hstart : attemptNumber id past pid step = none := by
        cases hstart : attemptNumber id past pid step with
        | none => rfl
        | some n =>
          obtain ⟨d, hd, hid, -⟩ := attemptNumber_eq_some hstart
          simp [hd, hid] at hbegun
      simp only [attemptsOf]
      split
      · exact hused
      · split
        · exact hused
        · exact hused
      · next n hact =>
        rw [attemptNumber_of_act hact] at hstart
        cases hstart
      · exact hused
      · exact hused

end step

/-! ## What a process knows of the numbers -/

/-- What is known of a process that attempts a delivery. -/
def AttemptNumberSound (past : (webhookPlatform node τ).History) (pid : Nat) : AttemptPhase τ → Prop
  | .read _ _ => attemptBegun pid past = false
  | .claimed id _ d => attemptBegun pid past = false ∧ lastClaimed pid past = some d ∧
      (attemptsFresh pid id past = true → (pid, d.attemptCount + 1) ∈ (attemptsOf id past).out)
  | .begun _ _ => attemptBegun pid past = true
  | .idle | .owned _ _ => True

/-- The numbers of every delivery follow its record. -/
def AttemptsFollow (w : World τ) (past : (webhookPlatform node τ).History) : Prop :=
  ∀ id, (attemptsOf id past).Follows ((w.webhooks.deliveries.get id).map WebhookDelivery.counter)
    (attemptUncounted id past) (replayedAttempt id past)

/-- Run ids are different, and name numbers that were used. -/
def NamesAttempts (past : (webhookPlatform node τ).History) : Prop :=
  (attemptRunIds past).Nodup ∧ ∀ runId ∈ attemptRunIds past, ∃ id n,
    runId = id ++ ":" ++ toString n ∧ n ∈ (attemptsOf id past).used

/-- The step concerns no attempt. -/
structure SteadyAttempt (step : (webhookPlatform node τ).Step) : Prop where
  reads : readsAttempt step = false
  mints : mintsAttempt step = none
  claimed : claimedDelivery step = none
  writes : ∀ id, writesDelivery id step = none

section step

variable {past : (webhookPlatform node τ).History} {pid : Nat} {step : (webhookPlatform node τ).Step}
  {choice : Choice} {ph ph' : AttemptPhase τ}

theorem steadyAttempt_of (hop : (step.op.leavesAttempts = true ∨
    step.call.entry.delivers = false ∧ step.op.handlesDeliveries = false) ∨
    (∃ ds, step.op = .webhooks (.createDeliveries ds)) ∨ ∃ ops, step.op = .commit ops) :
    SteadyAttempt step := by
  obtain ⟨call, op, res, before, after⟩ := step
  rcases hop with hop | ⟨ds, rfl⟩ | ⟨ops, rfl⟩
  · cases op with
    | webhooks o =>
      cases o with
      | getDelivery id =>
        rcases hop with hop | ⟨hcall, -⟩
        · cases hop
        · exact ⟨hcall, rfl, rfl, fun _ => rfl⟩
      | claimDelivery | updateDelivery =>
        rcases hop with hop | ⟨-, hop⟩ <;> cases hop
      | _ => exact ⟨rfl, rfl, rfl, fun _ => rfl⟩
    | authority o =>
      cases o with
      | mint claims verifiedBy =>
        rcases hop with hop | ⟨hcall, -⟩
        · cases hop
        · refine ⟨rfl, ?_, rfl, fun _ => rfl⟩
          have hcall : call.entry.delivers = false := hcall
          simp [mintsAttempt, hcall]
      | _ => exact ⟨rfl, rfl, rfl, fun _ => rfl⟩
    | _ => exact ⟨rfl, rfl, rfl, fun _ => rfl⟩
  · exact ⟨rfl, rfl, rfl, fun _ => rfl⟩
  · exact ⟨rfl, rfl, rfl, fun _ => rfl⟩

theorem SteadyAttempt.number (h : SteadyAttempt step) (id : String) :
    attemptNumber id past pid step = none := by
  simp [attemptNumber, begunDelivery, h.mints]

theorem claimsDelivery_claimed {id : String} (h : claimsDelivery id step = true) :
    ∃ d, claimedDelivery step = some d := by
  unfold claimsDelivery at h
  split at h
  · exact ⟨_, rfl⟩
  · cases h

theorem AttemptNumberSound.stay {q : Nat} {phq : AttemptPhase τ} (h : AttemptNumberSound past q phq)
    (hq : q ≠ pid ∨ SteadyAttempt step) : AttemptNumberSound (.ran pid step :: past) q phq := by
  have hbegun : attemptBegun q (.ran pid step :: past) = attemptBegun q past := by
    simp only [attemptBegun]
    split
    · next heq =>
      rcases hq with hne | hsteady
      · exact absurd heq.symm hne
      · rw [hsteady.reads, hsteady.mints]
        rfl
    · rfl
  have hlast : lastClaimed q (.ran pid step :: past) = lastClaimed q past := by
    simp only [lastClaimed]
    split
    · next heq =>
      rcases hq with hne | hsteady
      · exact absurd heq.symm hne
      · rw [hsteady.claimed]
        rfl
    · rfl
  cases phq with
  | idle | owned => trivial
  | read | begun => exact hbegun.trans h
  | claimed id name d =>
    obtain ⟨hnot, hclaimed, hfresh⟩ := h
    refine ⟨hbegun.trans hnot, hlast.trans hclaimed, fun hnew => ?_⟩
    obtain ⟨hact, -, hold⟩ := attemptsFresh_cons hnew
    have hpast : attemptsFresh q id past = true := by
      refine hold fun hboth => ?_
      rcases hq with hne | hsteady
      · exact hne hboth.1
      · obtain ⟨d, hd⟩ := claimsDelivery_claimed hboth.2
        rw [hsteady.claimed] at hd
        cases hd
    refine attemptsOut_cons (hfresh hpast) hact (hq.imp (fun h => h) fun h => ⟨h.number id, ?_⟩)
    simp [attemptPutBackNumber, h.writes id]

/-- An attempt that begins is of the delivery its process claimed. -/
theorem begins_of_mint (hstep : AttemptStep node ph step ph') (hbase : ph.Sound step.before)
    (h : AttemptNumberSound past pid ph) {claims : PrincipalClaims}
    (hmint : mintsAttempt step = some claims) :
    ∃ d, begunDelivery past pid step = some d ∧
      claims.runId = some (d.id ++ ":" ++ toString (d.attemptCount + 1)) ∧
      (attemptsFresh pid d.id past = true →
        (pid, d.attemptCount + 1) ∈ (attemptsOf d.id past).out) := by
  cases hstep with
  | quiet hop =>
    rw [(steadyAttempt_of (.inl hop)).mints] at hmint
    cases hmint
  | create hop =>
    rw [(steadyAttempt_of (.inr hop)).mints] at hmint
    cases hmint
  | @begin_ call id name d claims' res before after hcall hrun =>
    obtain ⟨-, hclaimed, hfresh⟩ := h
    obtain ⟨hheld, rfl⟩ := hbase
    have hid : d.id = name := hheld.id_eq
    subst hid
    have hclaims : claims' = claims := by simpa [mintsAttempt, hcall] using hmint
    refine ⟨d, ?_, hclaims ▸ hrun, hfresh⟩
    simp [begunDelivery, mintsAttempt, hcall, hclaimed]
  | _ => cases hmint

theorem attemptsOpen (hstep : AttemptStep node ph step ph') (hbase : ph.Sound step.before)
    (h : AttemptNumberSound past pid ph) (hcond : attemptsCounted past (.ran pid step) = true)
    (id : String) (n : Nat) (hstart : attemptNumber id past pid step = some n) :
    (pid, n) ∈ (attemptsOf id past).out := by
  obtain ⟨d, hd, rfl, rfl⟩ := attemptNumber_eq_some hstart
  have hmint : ∃ claims, mintsAttempt step = some claims := by
    refine Option.isSome_iff_exists.mp ?_
    by_contra hnone
    rw [begunDelivery, if_neg hnone] at hd
    cases hd
  obtain ⟨claims, hmint⟩ := hmint
  obtain ⟨d', hd', -, hfresh⟩ := begins_of_mint hstep hbase h hmint
  rw [hd] at hd'
  obtain rfl := Option.some.inj hd'
  simp only [attemptsCounted, hd, Option.all_some] at hcond
  exact hfresh hcond

theorem attemptNumberSound_own (hstep : AttemptStep node ph step ph') (hbase : ph.Sound step.before)
    (h : AttemptNumberSound past pid ph)
    (hexec : AppOp.exec step.op choice step.before = some (step.res, step.after)) :
    AttemptNumberSound (.ran pid step :: past) pid ph' := by
  cases hstep with
  | quiet hop => exact h.stay (.inr (steadyAttempt_of (.inl hop)))
  | create hop => exact h.stay (.inr (steadyAttempt_of (.inr hop)))
  | refuse | reset => trivial
  | @fetch _ call id res before after hcall =>
    rcases res with e | ⟨_ | d⟩
    · trivial
    · trivial
    · show attemptBegun pid _ = false
      simp [attemptBegun, readsAttempt, hcall]
  | @own call id res before after hcall =>
    rcases res with e | ⟨_ | d⟩ <;> trivial
  | @begin_ call id name d claims res before after hcall hrun =>
    show attemptBegun pid _ = true
    simp [attemptBegun, readsAttempt, mintsAttempt, hcall]
  | @settle call id key d u res before after hkey hstatus hcount =>
    show attemptBegun pid _ = true
    have hbegun : attemptBegun pid past = true := h
    simp [attemptBegun, readsAttempt, hbegun]
  | @claim call id d res before after hidle =>
    rcases res with e | ⟨_ | claimed⟩
    · trivial
    · trivial
    · have hbegun : attemptBegun pid past = false := h
      obtain ⟨old, hget, -, hnew, -⟩ := exec_claimDelivery hexec
      have hnumber : claimed.attemptCount = old.attemptCount := by rw [hnew]; rfl
      obtain ⟨hact, -, -⟩ := attemptAct_claim past pid rfl hget hexec
      obtain ⟨hclaimed, hclaims⟩ : attemptAct id past pid ⟨call,
          .webhooks (.claimDelivery id d.version), .ok (some claimed), before, after⟩ =
            .claimed (old.attemptCount + 1) ∧ _ :=
        hact.resolve_left fun hother => by
          simp [attemptAct, replays, insertsDelivery, writesDelivery, attemptClaimNumber,
            show before.webhooks.deliveries.get id = some old from hget] at hother
      refine ⟨by simp [attemptBegun, mintsAttempt, hbegun], by simp [lastClaimed, claimedDelivery], ?_⟩
      intro hfresh
      obtain ⟨-, hclaim, -⟩ := attemptsFresh_cons hfresh
      obtain ⟨hleft, hagain⟩ := hclaim ⟨rfl, hclaims⟩
      simp only [attemptsOf, hclaimed, hleft, hagain, Bool.or_self, Bool.false_eq_true, if_false,
        hnumber]
      exact List.mem_cons_self

/-- A merge keeps the numbers in order. -/
theorem attemptsFollow_merge {id : String} {d : WebhookDelivery τ} {u : DeliveryUpdate τ}
    (hmerged : DeliveryMerged id d u ph) (h : AttemptNumberSound past pid ph)
    (hexec : AppOp.exec step.op choice step.before = some (step.res, step.after))
    (hold : step.before.webhooks.deliveries.get id = some d)
    (hnew : step.after.webhooks.deliveries.get id = some (u.written d))
    (hop : step.op = .webhooks (.updateDelivery id d.version u) ∨
      step.op = .webhooks (.claimDelivery id d.version) ∧ u = claimDeliveryUpdate step.before.clock)
    (hfollows : (attemptsOf id past).Follows (some d.counter) (attemptUncounted id past)
      (replayedAttempt id past)) :
    (attemptsOf id (.ran pid step :: past)).Follows (some (u.written d).counter)
      (attemptUncounted id (.ran pid step :: past)) (replayedAttempt id (.ran pid step :: past)) := by
  have hidle : d.status ≠ .delivering → replayedAttempt id past = false →
      attemptUncounted id past = false → (attemptsOf id past).Upto d.attemptCount := by
    intro hidle hagain hleft
    exact hfollows.settled hagain hleft d.counter rfl (by simpa [WebhookDelivery.counter] using hidle)
  -- an update that leaves the counter: the number of the attempt is put back
  have hputs : step.op = .webhooks (.updateDelivery id d.version u) → u.status ≠ some .pending →
      u.attemptCount = none → (replayedAttempt id past = false →
        attemptUncounted id (.ran pid step :: past) = false → (u.written d).counter.busy = false →
        ((attemptsOf id past).drop pid (d.attemptCount + 1)).Upto d.attemptCount) →
      (attemptsOf id (.ran pid step :: past)).Follows (some (u.written d).counter)
        (attemptUncounted id (.ran pid step :: past))
        (replayedAttempt id (.ran pid step :: past)) := by
    intro hop hpending hcount hupto
    obtain ⟨hact, -, hagain⟩ := attemptAct_update past pid hop hold hnew
    rw [if_neg hpending, if_pos hcount] at hact
    have hpend : (u.status == some .pending) = false := by simpa using hpending
    rw [hpend, Bool.false_and, Bool.or_false] at hagain
    simp only [attemptsOf, hact, hagain]
    exact hfollows.drop (by simp [WebhookDelivery.counter, hcount]) hupto
  cases hmerged with
  | refused hnot hstatus hcount =>
    rcases hop with hop | ⟨-, rfl⟩
    · refine hputs hop (by simp [hstatus]) hcount fun hagain hleft _ => ?_
      obtain ⟨-, hleft', -⟩ := attemptAct_update past pid hop hold hnew
      rw [hleft', hcount, Option.isNone_none, Bool.true_and, Bool.or_eq_false_iff] at hleft
      exact (hidle hnot hagain hleft.1).drop
    · simp [claimDeliveryUpdate] at hstatus
  | settled hstatus hcount =>
    rcases hop with hop | ⟨-, rfl⟩
    · rcases hcount with hcount | hcount
      · refine hputs hop hstatus.1 hcount fun _ hleft _ => ?_
        -- the attempt began, and is not counted
        obtain ⟨-, hleft', -⟩ := attemptAct_update past pid hop hold hnew
        have hbegun : attemptBegun pid past = true := h
        rw [hleft', hcount, hbegun, Bool.or_true] at hleft
        cases hleft
      · obtain ⟨hact, -, hagain⟩ := attemptAct_update past pid hop hold hnew
        rw [if_neg hstatus.1, if_neg (by simp [hcount])] at hact
        have hpend : (u.status == some .pending) = false := by simpa using hstatus.1
        rw [hpend, Bool.false_and, Bool.or_false] at hagain
        simp only [attemptsOf, hact, hagain]
        exact hfollows.count (by simp [WebhookDelivery.counter, hcount])
    · exact absurd rfl hstatus.2
  | reset hu =>
    subst hu
    rcases hop with hop | ⟨-, hu⟩
    · obtain ⟨hact, -, hagain⟩ := attemptAct_update past pid hop hold hnew
      rw [if_pos (by simp [WebhookService.replayUpdate])] at hact
      simp only [attemptsOf, hact]
      refine hfollows.restart fun hagain' => ?_
      rw [hagain] at hagain'
      have hwas := (Bool.or_eq_false_iff.mp hagain').2
      exact used_of_wasAttempted (by simpa [WebhookService.replayUpdate] using hwas)
    · have hstatus := congrArg DeliveryUpdate.status hu
      simp [WebhookService.replayUpdate, claimDeliveryUpdate] at hstatus
  | claimed hnot hstatus hcount =>
    have hbusy : (u.written d).counter.busy = true := by simp [WebhookDelivery.counter, hstatus]
    have hkept : (u.written d).counter.count = d.counter.count := by
      simp [WebhookDelivery.counter, hcount]
    rcases hop with hop | ⟨hop, -⟩
    · refine hputs hop (by simp [hstatus]) hcount fun _ _ hidle' => ?_
      rw [hbusy] at hidle'
      cases hidle'
    · obtain ⟨hact, hleft, hagain⟩ := attemptAct_claim past pid hop hold hexec
      rw [hleft, hagain]
      rcases hact with hact | ⟨hact, -⟩
      · simp only [attemptsOf, hact]
        exact hfollows.busy hkept hbusy
      · simp only [attemptsOf, hact]
        split
        · exact hfollows.busy hkept hbusy
        · next hspent =>
          obtain ⟨hleft', hagain'⟩ := Bool.or_eq_false_iff.mp (Bool.eq_false_iff.mpr hspent)
          exact hfollows.take (hidle hnot hagain' hleft') hkept hbusy

theorem attemptsFollow_step (hall : AttemptsFollow step.before past)
    (hstep : AttemptStep node ph step ph') (hbase : ph.Sound step.before)
    (h : AttemptNumberSound past pid ph)
    (hexec : AppOp.exec step.op choice step.before = some (step.res, step.after))
    (hopen : ∀ id n, attemptNumber id past pid step = some n → (pid, n) ∈ (attemptsOf id past).out) :
    AttemptsFollow step.after (.ran pid step :: past) := by
  intro id
  rcases exec_delivery hexec id with hsame | ⟨new, hop, -, habsent, hget⟩ | ⟨old, u, hop, hold, hget⟩
  · obtain ⟨hact, hleft, hagain⟩ := attemptAct_of_unchanged past pid hexec hsame
    rw [hsame, hleft, hagain]
    rcases hact with ⟨hact, -⟩ | ⟨n, hstart, hact⟩
    · simp only [attemptsOf, hact]
      exact hall id
    · simp only [attemptsOf, hact]
      exact (hall id).use (hopen id n hstart)
  · have hact : attemptAct id past pid step = .renewed := by
      simp [attemptAct, insertsDelivery, habsent, hget]
    have hfollows := hall id
    rw [habsent] at hfollows
    rw [hget]
    simp only [attemptsOf, hact]
    refine hfollows.restart fun hagain => ?_
    have hpast : replayedAttempt id past = false := (Bool.or_eq_false_iff.mp hagain).1
    exact (List.append_eq_nil_iff.mp (hfollows.absent hpast)).1
  · have hfollows := hall id
    rw [hold] at hfollows
    rw [hget]
    exact attemptsFollow_merge (hstep.merged hbase hold hop) h hexec hold hget hop hfollows

/-- What the beginning of an attempt is to the attempts at its delivery. -/
theorem attemptAct_begun {d : WebhookDelivery τ}
    (hexec : AppOp.exec step.op choice step.before = some (step.res, step.after))
    (h : begunDelivery past pid step = some d) :
    attemptAct d.id past pid step = .started (d.attemptCount + 1) := by
  have hsame : step.after.webhooks.deliveries.get d.id = step.before.webhooks.deliveries.get d.id := by
    rcases exec_delivery hexec d.id with hsame | ⟨_, hop, -, -, -⟩ | ⟨_, _, hop, -, -⟩
    · exact hsame
    · obtain ⟨call, op, res, before, after⟩ := step
      rcases hop with ⟨ds, rfl⟩ | ⟨ops, rfl⟩ <;> cases h
    · obtain ⟨call, op, res, before, after⟩ := step
      rcases hop with rfl | ⟨rfl, -⟩ <;> cases h
  have hnumber : attemptNumber d.id past pid step = some (d.attemptCount + 1) := by
    simp [attemptNumber, h]
  obtain ⟨⟨-, hnone⟩ | ⟨n, hn, hact⟩, -, -⟩ :=
    attemptAct_of_unchanged past pid hexec hsame
  · rw [hnumber] at hnone
    cases hnone
  · rw [hnumber] at hn
    obtain rfl := Option.some.inj hn
    exact hact

theorem namesAttempts_step (hstep : AttemptStep node ph step ph') (hbase : ph.Sound step.before)
    (h : AttemptNumberSound past pid ph) (hall : AttemptsFollow step.before past)
    (hnames : NamesAttempts past)
    (hexec : AppOp.exec step.op choice step.before = some (step.res, step.after))
    (hcond : attemptsCounted past (.ran pid step) = true) :
    NamesAttempts (.ran pid step :: past) := by
  have hkept : ∀ runId ∈ attemptRunIds past, ∃ id n, runId = id ++ ":" ++ toString n ∧
      n ∈ (attemptsOf id (.ran pid step :: past)).used := by
    intro runId hmem
    obtain ⟨id, n, hname, hused⟩ := hnames.2 runId hmem
    exact ⟨id, n, hname, attemptsUsed_cons hused⟩
  cases hmint : mintsAttempt step with
  | none =>
    exact ⟨by simpa [attemptRunIds, hmint] using hnames.1, by simpa [attemptRunIds, hmint] using hkept⟩
  | some claims =>
    obtain ⟨d, hd, hname, hfresh⟩ := begins_of_mint hstep hbase h hmint
    simp only [attemptsCounted, hd, Option.all_some] at hcond
    have hids : attemptRunIds (.ran pid step :: past) =
        (d.id ++ ":" ++ toString (d.attemptCount + 1)) :: attemptRunIds past := by
      simp [attemptRunIds, hmint, hname]
    rw [NamesAttempts, hids]
    refine ⟨List.nodup_cons.mpr ⟨fun hmem => ?_, hnames.1⟩, fun runId hmem => ?_⟩
    · obtain ⟨id, n, hname', hused⟩ := hnames.2 _ hmem
      obtain ⟨rfl, rfl⟩ := numbered_inj hname'
      exact (hall _).distinct.unused (hfresh hcond) hused
    · rcases List.mem_cons.mp hmem with rfl | hmem
      · refine ⟨_, _, rfl, ?_⟩
        simp only [attemptsOf, attemptAct_begun hexec hd]
        exact List.mem_cons_self
      · exact hkept runId hmem

end step

theorem attemptNumbers_inductive : (attemptProtocol node τ).LocalOver
    (fun older e => attemptsCounted older e = true) AttemptBase
    (fun w past => NamesAttempts past ∧ AttemptsFollow w past)
    (fun _ past pid ph => AttemptNumberSound past pid ph) where
  spawn _ _ _ := trivial
  good := by
    intro past phases pid step ph ph' h
    obtain ⟨choice, hexec⟩ := h.exec
    have hbase := h.base.2 pid ph h.here
    exact ⟨namesAttempts_step h.next hbase h.own h.good.2 h.good.1 hexec h.cond,
      attemptsFollow_step h.good.2 h.next hbase h.own hexec (attemptsOpen h.next hbase h.own h.cond)⟩
  own := by
    intro past phases pid step ph ph' h
    obtain ⟨choice, hexec⟩ := h.exec
    exact attemptNumberSound_own h.next (h.base.2 pid ph h.here) h.own hexec
  other h hne hq := (h.sound _ _ hq).stay (.inl hne)
  stopGood hgood _ := hgood
  stopOther {_ _ _ _ _ phq} _ h := by
    cases phq <;> exact h
  envGood {w w' past} move hgood henv := by
    refine ⟨hgood.1, fun id => ?_⟩
    rw [(webhookEnv_keeps henv).1]
    exact hgood.2 id
  envSound _ _ h _ := h

/-- **Attempts at deliveries have run ids of their own** where they begin under claims
that were made when every earlier attempt at the delivery was counted. -/
theorem attempt_runIds_nodup {w : World τ} (hw : w.webhooks = {})
    {as : List (webhookPlatform node τ).Action} {c : (webhookPlatform node τ).Config}
    (hrun : (webhookPlatform node τ).run (Config.init w) as = some c)
    (hcond : Always attemptsCounted c.past) : (attemptRunIds c.past).Nodup := by
  have hkeyed : KeyedDeliveries w := by
    intro id d hget
    rw [hw] at hget
    cases hget
  obtain ⟨phases, ⟨-, ⟨⟨hnodup, -⟩, -⟩, -⟩, -⟩ := Discipline.sound (attemptProtocol_obeyed node)
    ((attemptBase _).and attemptNumbers_inductive.toInductive)
    ⟨⟨hkeyed, fun q phq hq => by cases hq⟩,
      ⟨⟨List.nodup_nil, fun _ h => absurd h List.not_mem_nil⟩, fun _ => Numbering.follows_nil⟩,
      fun q phq hq => by cases hq⟩ hrun hcond
  exact hnodup

/-! ## The guarantee -/

/-- A runtime whose computations this run does not look at. -/
def quietNode : NodeRuntime where
  sha256Hex _ := ""
  hmacSha256Hex _ _ := "signed"
  jsonParse _ := none
  jsonStringify _ := ""
  urlOrigin _ := some "https://hooks.example"

/-- A webhook service with an authorizer and a resolver of credentials. -/
def hookService : WebhookService where
  authority := some { application := "app", authorizer := true, credentials := true }

/-- The next answers a process of the webhook service gets. -/
def answeringHook (pid : Nat) (choices : List Choice) :
    List (webhookPlatform quietNode Nat).Action := choices.map (.step pid)

/-- An endpoint for the events of an order. -/
def paidEndpoint : CreateWebhookEndpointInput where
  url := .str "https://hooks.example"
  events := .arr [.str "order.paid"]
  signingCredentialRef := .str "credential-ref:hooks"

/-- An endpoint is registered, an event is emitted to it, and delivered. -/
def oneDelivery : List (webhookPlatform quietNode Nat).Action :=
  let hook : Choice := .destination (.ok ⟨"https://hooks.example", "https://hooks.example"⟩)
  .spawn ⟨hookService, .createWebhookEndpoint paidEndpoint (.of ada)⟩ ::
    answeringHook 0 [.proceed, hook, .draw "request", .proceed, .proceed, .proceed, .proceed,
      allows "d0" "webhooks.register" "appport://app/tenants/acme/webhook_endpoint/*", .proceed,
      .proceed, .proceed, .proceed, .proceed, .draw "row0", .proceed, .proceed, .draw "endpoint",
      .proceed, .draw "audit0", .proceed, .proceed, .proceed, .proceed, .proceed, .proceed] ++
  .spawn ⟨hookService, .emitWebhookEvent { type := "order.paid" } (.of ada)⟩ ::
    answeringHook 1 [.proceed, .draw "request", .proceed, .proceed, .proceed, .proceed,
      allows "d1" "webhooks.emit" "appport://app/tenants/acme/webhook_event/*", .proceed, .proceed,
      .proceed, .proceed, .proceed, .draw "row1", .proceed, .proceed, .draw "event", .proceed,
      .draw "w1", .proceed, .draw "audit1", .proceed, .proceed, .proceed, .proceed, .proceed,
      .proceed] ++
  .spawn ⟨hookService, .deliverWebhook "acme" "w1"⟩ ::
    answeringHook 2 [.proceed, .proceed, .proceed, .proceed, .proceed, .draw "request", .proceed,
      .proceed, .proceed, .proceed,
      allows "d2" "webhooks.deliver" "appport://app/tenants/acme/webhook_delivery/w1", .proceed,
      .proceed, .proceed, .proceed, .proceed, .draw "row2", .proceed, hook, .proceed, .proceed,
      .proceed, .secret (.resolved (.str "key")), .provider (.status 200), .proceed, .proceed,
      .proceed, .proceed, .proceed, .proceed, .draw "audit2", .proceed, .proceed]

/-- A job is created and executed once. -/
def oneExecution : List (jobPlatform Nat).Action := nestedRefusal.take 51

end AppPort
