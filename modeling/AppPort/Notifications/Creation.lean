import AppPort.Lib.Trace
import AppPort.Notifications.Records

/-!
# Creation — a notification and its deliveries under contention

`createWithDeliveries` writes a notification and its deliveries in one transaction. Where
that fails and there is no notification, it takes the deliveries it finds for leftovers,
deletes them and tries again. What it found may be the fresh deliveries of another
creator: between its reads and its deletes that one's transaction goes through.

Any number of creators and deleters of one notification, from any state of the store. What
is proved: as long as no leftover is deleted while the notification stands, a notification
that exists once all have returned has all its deliveries, and every time it came into
existence one creator returned `true`, and no other did. `deletesFresh` is a run in which a
leftover was no leftover.
-/

namespace AppPort

open Effects Effects.Platform

variable {τ : Type}

/-! ## The platform -/

/-- What a creator is asked to write under the id. -/
structure NotificationCreation (τ : Type) (id : String) where
  item : Notification τ
  deliveries : List (NotificationDelivery τ)
  named : item.id = id

inductive CreationCall (τ : Type) (id : String) where
  | create (creation : NotificationCreation τ id)
  | delete (service : NotificationService τ) (tenantId : String) (caller : PrincipalInput)
      (legacy : NotificationService.LegacyPrincipal)

inductive CreationAnswer where
  | created (new : Bool)
  | deleted
  deriving DecidableEq

/-- The same notifications and deliveries exist. -/
structure SameExistence (id : String) (w w' : World τ) : Prop where
  notification : (w'.notifications.notifications.get id).isSome =
    (w.notifications.notifications.get id).isSome
  delivery : ∀ d, (w'.notifications.deliveries.get d).isSome =
    (w.notifications.deliveries.get d).isSome

/-- A change of the world that neither creates nor deletes a notification or a delivery. -/
abbrev KeepsExistence (τ : Type) (id : String) :=
  { f : World τ → World τ // ∀ w, SameExistence id w (f w) }

section platform

variable [Timestamp τ] {id : String}

def creationBody : CreationCall τ id → Svc τ CreationAnswer
  | .create creation =>
    (createWithDeliveries creation.item creation.deliveries).bind fun new => pure (.created new)
  | .delete service tenantId caller legacy =>
    (service.delete tenantId id caller legacy).bind fun _ => pure .deleted

/-- Creators and deleters of one notification; everything else changes freely. -/
abbrev creationPlatform (τ : Type) [Timestamp τ] (id : String) : Platform :=
  appPlatform (creationBody : CreationCall τ id → _) fun (f : KeepsExistence τ id) w => some (f.1 w)

/-! ## What is claimed -/

/-- The notification exists only with these deliveries. -/
def Whole (id : String) (deliveries : List String) (w : World τ) : Prop :=
  (w.notifications.notifications.get id).isSome → ∀ d ∈ deliveries,
    (w.notifications.deliveries.get d).isSome

/-- The deliveries a step wrote together with the notification. -/
def writtenBy : (creationPlatform τ id).Step → Option (List String)
  | ⟨_, .notifications (.commitNotification _ deliveries), .ok _, _, _⟩ =>
    some (deliveries.map NotificationDelivery.id)
  | _ => none

/-- The deliveries of the notification: those it was last written with. -/
def ownDeliveries (start : List String) : (creationPlatform τ id).History → List String
  | [] => start
  | .ran _ step :: past => (writtenBy step).getD (ownDeliveries start past)
  | .stopped _ _ :: past => ownDeliveries start past

/-- The notification came into existence. -/
def cameIntoExistence (step : (creationPlatform τ id).Step) : Bool :=
  (step.before.notifications.notifications.get id).isNone &&
    (step.after.notifications.notifications.get id).isSome

/-- How often a process brought the notification into existence. -/
def creationsOf (c : (creationPlatform τ id).Config) (pid : Nat) : Nat :=
  (ownSteps pid c.past).countP cameIntoExistence

/-- A transaction that fails brings nothing into existence, the deletes of a deleter go through, and no
creator deletes a delivery while the notification stands. -/
def isUndisturbed (_ : (creationPlatform τ id).History) : (creationPlatform τ id).Event → Bool
  | .ran _ ⟨_, .notifications (.commitNotification _ _), .error _, before, after⟩ =>
    (before.notifications.notifications.get id).isSome ||
      (after.notifications.notifications.get id).isNone
  | .ran _ ⟨.create _, .notifications (.deleteDelivery d), _, before, _⟩ =>
    (before.notifications.notifications.get id).isNone ||
      (before.notifications.deliveries.get d).isNone
  | .ran _ ⟨.delete .., .notifications (.deleteDelivery _), res, _, _⟩
  | .ran _ ⟨_, .notifications (.deleteNotification _), res, _, _⟩ => res.isOk
  | _ => true

/-- Creation was atomic: the notification is whole, and the calls that returned `true` are
those that brought it into existence, each once. -/
structure CreationAtomic (start : List String) (c : (creationPlatform τ id).Config) : Prop where
  whole : Whole id (ownDeliveries start c.past) c.world
  counted : ∀ pid call r, c.proc pid = some ⟨call, .settled r⟩ →
    creationsOf c pid = if r = .ok (.created true) then 1 else 0

/-! ## The protocol -/

inductive CreationPhase where
  | resting
  /-- A creator has written the notification. -/
  | written
  /-- A deleter has deleted deliveries, and not yet the notification. -/
  | removing
  /-- A delete of its failed. -/
  | aborted
  deriving DecidableEq

/-- The calls that neither create nor delete a notification or a delivery. -/
def AppOp.keepsExistence : AppOp τ → Bool
  | .notifications (.commitNotification _ _) | .notifications (.deleteNotification _)
  | .notifications (.deleteDelivery _) | .commit _ => false
  | _ => true

/-- What a process may do next. -/
inductive CreationMove : CreationPhase → (creationPlatform τ id).Step → CreationPhase → Prop
  | keeps {ph call op res before after} (h : op.keepsExistence = true) :
      CreationMove ph ⟨call, op, res, before, after⟩ ph
  | writes {creation before after} :
      CreationMove .resting ⟨.create creation,
        .notifications (.commitNotification creation.item creation.deliveries), .ok (), before, after⟩
        .written
  | fails {ph creation e before after} :
      CreationMove ph ⟨.create creation,
        .notifications (.commitNotification creation.item creation.deliveries), .error e, before,
        after⟩ ph
  | clears {ph creation d res before after} :
      CreationMove ph ⟨.create creation, .notifications (.deleteDelivery d), res, before, after⟩ ph
  | removes {ph service tenantId caller legacy d before after} (hph : ph ≠ .written) :
      CreationMove ph ⟨.delete service tenantId caller legacy, .notifications (.deleteDelivery d),
        .ok (), before, after⟩ .removing
  | removed {ph service tenantId caller legacy before after} (hph : ph ≠ .written) :
      CreationMove ph ⟨.delete service tenantId caller legacy,
        .notifications (.deleteNotification id), .ok (), before, after⟩ .resting
  | abortsDelivery {ph service tenantId caller legacy d e before after} :
      CreationMove ph ⟨.delete service tenantId caller legacy, .notifications (.deleteDelivery d),
        .error e, before, after⟩ .aborted
  | abortsNotification {ph service tenantId caller legacy n e before after} :
      CreationMove ph ⟨.delete service tenantId caller legacy,
        .notifications (.deleteNotification n), .error e, before, after⟩ .aborted

/-- A creator writes the notification at most once and returns `true` exactly then; a deleter
does not return between its deletes. -/
abbrev creationProtocol (τ : Type) [Timestamp τ] (id : String) :
    Discipline (creationPlatform τ id) where
  Phase := CreationPhase
  start _ := .resting
  next := CreationMove
  final _ r ph := ph ≠ .removing ∧ (ph = .written ↔ r = .ok (.created true))

/-! ### Every entry point keeps to it -/

section conformance

variable {call : CreationCall τ id} {ph : CreationPhase} {α : Type}

theorem keepsExistence_idle (call : CreationCall τ id) (ph : CreationPhase) :
    {op | AppOp.keepsExistence op = true} ⊆ (creationProtocol τ id).Idle call ph :=
  fun _ hop _ _ _ _ _ => .keeps hop

theorem quietDelivery_creation (call : CreationCall τ id) (ph : CreationPhase) :
    quietDeliveryCalls ⊆ (creationProtocol τ id).Idle call ph := by
  intro op hop
  refine keepsExistence_idle call ph ?_
  cases op with
  | notifications op => cases op <;> first | rfl | cases hop
  | commit => cases hop
  | _ => rfl

theorem authority_creation (call : CreationCall τ id) (ph : CreationPhase) :
    authorityCalls ⊆ (creationProtocol τ id).Idle call ph :=
  authority_quietDelivery.trans (quietDelivery_creation call ph)

/-- Quiet calls, and then a task from the same phase. -/
theorem creation_quiet_bind {β : Type} {t : Svc τ α} {f : α → Svc τ β}
    {Q : Except JsError β → CreationPhase → Prop}
    (ht : Task.Uses (S := services τ) quietDeliveryCalls t) (herr : ∀ e, Q (.error e) ph)
    (hf : ∀ a, (creationProtocol τ id).Conforms call (f a) ph Q) :
    (creationProtocol τ id).Conforms call (t.bind f) ph Q := by
  refine Discipline.Conforms.bind
    (Discipline.Conforms.of_idle (ht.mono (quietDelivery_creation call ph))) ?_ ?_
  · intro a ph' hph
    subst hph
    exact hf a
  · intro e ph' hph
    subst hph
    exact herr e

/-- Where a creator ends: it returns `true` exactly when it wrote the notification. -/
def CreationPhase.ofResult : Except JsError Bool → CreationPhase
  | .ok true => .written
  | _ => .resting

/-- The transaction of a creator, and `true`. -/
theorem commits_conforms (creation : NotificationCreation τ id) :
    (creationProtocol τ id).Conforms (.create creation)
      ((NotificationOp.commitNotification creation.item creation.deliveries).perform.bind
        fun _ => pure true)
      .resting (fun r ph => ph = .ofResult r) := by
  refine Discipline.Conforms.await_bind (D := creationProtocol τ id) ?_
  intro choice before res after _
  cases res with
  | ok _ => exact ⟨.written, .writes, rfl⟩
  | error e => exact ⟨.resting, .fails, rfl⟩

theorem creator_conforms (creation : NotificationCreation τ id) :
    (creationProtocol τ id).Conforms (.create creation)
      (createWithDeliveries creation.item creation.deliveries) .resting
      (fun r ph => ph = .ofResult r) := by
  have hread : ∀ op : NotificationOp τ, (AppOp.notifications op).keepsExistence = true →
      Task.Uses (S := services τ) ((creationProtocol τ id).Idle (.create creation) .resting)
        op.perform := fun op hop => Task.uses_perform (keepsExistence_idle _ _ hop)
  have hidle : ∀ {α β : Type} {t : Svc τ α} {f : α → Svc τ β}
      {Q : Except JsError β → CreationPhase → Prop},
      Task.Uses (S := services τ) ((creationProtocol τ id).Idle (.create creation) .resting) t →
      (∀ e, Q (.error e) .resting) →
      (∀ a, (creationProtocol τ id).Conforms (.create creation) (f a) .resting Q) →
      (creationProtocol τ id).Conforms (.create creation) (t.bind f) .resting Q := by
    intro α β t f Q ht herr hf
    refine Discipline.Conforms.bind (Discipline.Conforms.of_idle ht) ?_ ?_
    · rintro a ph rfl
      exact hf a
    · rintro e ph rfl
      exact herr e
  have horphans : ∀ deliveries : List (NotificationDelivery τ), Task.Uses (S := services τ)
      ((creationProtocol τ id).Idle (.create creation) .resting)
      (orphanedDeliveries deliveries) := by
    intro deliveries
    induction deliveries with
    | nil => trivial
    | cons delivery rest ih =>
      exact (hread _ rfl).bind fun _ => ih.bind fun _ => trivial
  unfold createWithDeliveries
  refine Discipline.Conforms.tryCatch (commits_conforms creation) (fun _ _ h => h) ?_
  rintro error ph rfl
  refine hidle (hread _ rfl) (fun _ => rfl) fun existing => ?_
  split
  · rfl
  refine hidle (horphans _) (fun _ => rfl) fun staleIds => ?_
  split
  · rfl
  refine hidle (Task.Uses.forEach _ fun d _ => ?_) (fun _ => rfl) fun _ => commits_conforms creation
  exact Task.uses_perform fun _ _ _ _ _ => .clears

/-- The deletes of a deleter: it does not stop between them. -/
theorem deleter_conforms {service : NotificationService τ} {tenantId : String}
    {caller : PrincipalInput} {legacy : NotificationService.LegacyPrincipal}
    (item : Notification τ) (principalId : String) :
    (creationProtocol τ id).Conforms (.delete service tenantId caller legacy)
      (NotificationService.deleteFound item id principalId) .resting
      (fun _ ph => ph = .resting ∨ ph = .aborted) := by
  unfold NotificationService.deleteFound
  refine creation_quiet_bind (Task.uses_perform rfl) (fun _ => .inl rfl) fun deliveries => ?_
  refine Discipline.Conforms.bind (D := creationProtocol τ id)
    (Q := fun r ph => match r with | .ok _ => ph ≠ .written | .error _ => ph = .aborted)
    ?_ ?_ (fun _ _ h => .inr h)
  · refine Discipline.Conforms.forEach (I := fun ph : CreationPhase => ph ≠ .written) ?_
      (fun _ h => h) _ nofun
    intro delivery ph hph
    refine Discipline.conforms_perform (D := creationProtocol τ id) ?_
    intro choice before res after _
    cases res with
    | ok _ => exact ⟨.removing, .removes hph, nofun⟩
    | error e => exact ⟨.aborted, .abortsDelivery, rfl⟩
  · intro _ ph hph
    refine Discipline.Conforms.await_bind (D := creationProtocol τ id) ?_
    intro choice before res after _
    cases res with
    | ok _ =>
      refine ⟨.resting, .removed hph, ?_⟩
      refine Discipline.Conforms.mono (fun _ _ h => .inl h) (Discipline.Conforms.of_idle
        ((NotificationService.uses_audit quietDelivery_ambient _ _ _ _).mono (quietDelivery_creation _ .resting)))
    | error e => exact ⟨.aborted, .abortsNotification, .inr rfl⟩

/-- **Every entry point keeps to the protocol.** -/
theorem creationProtocol_obeyed : (creationProtocol τ id).Obeyed := by
  intro call
  cases call with
  | create creation =>
    refine Discipline.Conforms.bind (creator_conforms creation) ?_ ?_
    · rintro new ph rfl
      cases new <;> exact ⟨nofun, by simp [CreationPhase.ofResult]⟩
    · rintro e ph rfl
      exact ⟨nofun, by simp [CreationPhase.ofResult]⟩
  | delete service tenantId caller legacy =>
    refine Discipline.Conforms.bind (D := creationProtocol τ id)
      (Q := fun _ ph => ph = .resting ∨ ph = .aborted) ?_ ?_ ?_
    · unfold NotificationService.delete
      split
      · refine creation_quiet_bind (uses_quietDelivery (uses_requireVerifiedPrincipal caller))
          (fun _ => .inl rfl) fun principal => ?_
        refine creation_quiet_bind (Task.uses_settled _ _) (fun _ => .inl rfl) fun tenant => ?_
        refine creation_quiet_bind (quietDelivery_ambient.uses_storedNotification _ _) (fun _ => .inl rfl) fun item => ?_
        split
        · exact .inl rfl
        split
        · exact .inl rfl
        exact conforms_execute (fun ph => gatewayCalls_subset.trans (authority_creation _ ph))
          (fun _ => .inl rfl) (fun context tools => deleter_conforms _ _)
          (fun _ _ h => h) (fun _ _ _ h _ => h) (fun _ _ h => h)
      · refine creation_quiet_bind (quietDelivery_ambient.uses_storedNotification _ _) (fun _ => .inl rfl) fun item => ?_
        split
        · exact .inl rfl
        refine creation_quiet_bind (Task.uses_settled _ _) (fun _ => .inl rfl) fun _ => ?_
        exact deleter_conforms _ _
    · rintro _ ph (rfl | rfl) <;> exact ⟨nofun, by simp⟩
    · rintro _ ph (rfl | rfl) <;> exact ⟨nofun, by simp⟩

end conformance

/-! ## What a step does -/

section steps

variable {choice : Choice} {w w' : World τ}

omit [Timestamp τ] in
theorem SameExistence.of_eq (h : w'.notifications = w.notifications) : SameExistence id w w' where
  notification := by rw [h]
  delivery d := by rw [h]

omit [Timestamp τ] in
theorem SameExistence.whole {deliveries : List String} (h : SameExistence id w w')
    (hw : Whole id deliveries w) : Whole id deliveries w' := by
  intro hexists d hd
  rw [h.delivery d]
  exact hw (h.notification ▸ hexists) d hd

/-- A conditional write brings nothing into existence. -/
theorem isSome_updateIfVersion {α : Type} [Versioned α] {t t' : Table String α} {k : String} {v : Nat}
    {change : α → α} {r : Option α} (h : t.updateIfVersion k v change = (r, t')) (k' : String) :
    (t'.get k').isSome = (t.get k').isSome := by
  rcases Table.updateIfVersion_eq h with ⟨a, hget, -, -, rfl⟩ | ⟨-, rfl⟩
  · rw [Table.get_put]
    split
    · next hk =>
      rw [hk, hget]
      rfl
    · rfl
  · rfl

/-- Only the transaction of a creation and the deletes touch what exists. -/
theorem sameExistence_exec {op : AppOp τ} {res : Except JsError (op.Out τ)}
    (hop : op.keepsExistence = true) (h : op.exec choice w = some (res, w')) :
    SameExistence id w w' := by
  have hstored : ∀ {β : Type} {r : Except JsError β × World τ} {res : Except JsError β},
      SameExistence id w r.2 → stored choice w r = some (res, w') → SameExistence id w w' := by
    intro β r res hr hs
    rcases stored_cases hs with ⟨-, rfl⟩ | ⟨_, -, rfl | rfl⟩
    · exact hr
    · exact hr
    · exact .of_eq rfl
  cases op with
  | authority o => exact .of_eq (o.exec_stores h).notifications
  | jobs o => exact hstored (.of_eq rfl) h
  | schedules o => exact hstored (.of_eq rfl) h
  | webhooks o => exact hstored (.of_eq rfl) h
  | apiKeys o => exact hstored (.of_eq rfl) h
  | configuration o => exact hstored (.of_eq rfl) h
  | secretMetadata o => exact hstored (.of_eq rfl) h
  | audit o => cases o <;> exact hstored (.of_eq rfl) h
  | commit ops => cases hop
  | host o => exact .of_eq (by rw [o.exec_world h])
  | notifications o =>
    cases o with
    | getNotification | listNotifications | getDelivery | listDeliveries =>
      exact hstored (.of_eq rfl) h
    | commitNotification | deleteNotification | deleteDelivery => cases hop
    | updateNotification k v u =>
      cases hupdate : w.notifications.notifications.updateIfVersion k v u.apply with
      | mk r notifications' =>
        simp only [AppOp.exec, NotificationOp.exec, hupdate] at h
        exact hstored ⟨isSome_updateIfVersion hupdate id, fun _ => rfl⟩ h
    | updateDelivery tenantId d v u =>
      simp only [AppOp.exec, NotificationOp.exec] at h
      split at h
      · cases hupdate : w.notifications.deliveries.updateIfVersion d v u.apply with
        | mk r deliveries' =>
          rw [hupdate] at h
          exact hstored ⟨rfl, isSome_updateIfVersion hupdate⟩ h
      · exact hstored (.of_eq rfl) h

/-- A transaction that goes through brings the notification into existence, and all its
deliveries. -/
theorem commitNotification_ok {creation : NotificationCreation τ id}
    (h : AppOp.exec (.notifications (.commitNotification creation.item creation.deliveries)) choice w =
      some (.ok (), w')) :
    w.notifications.notifications.get id = none ∧
    (w'.notifications.notifications.get id).isSome = true ∧
    ∀ d ∈ creation.deliveries.map NotificationDelivery.id,
      (w'.notifications.deliveries.get d).isSome = true := by
  simp only [AppOp.exec, NotificationOp.exec, creation.named] at h
  split at h
  · next hitem hdeliveries =>
    obtain ⟨hnone, rfl⟩ := Table.insertAbsent_eq_some hitem
    rcases stored_cases h with ⟨-, rfl⟩ | ⟨message, hres, -⟩
    · refine ⟨hnone, by simp, fun d hd => ?_⟩
      obtain ⟨delivery, hmem, rfl⟩ := List.mem_map.mp hd
      exact insertAll_stores hdeliveries delivery hmem
    · cases hres
  · rcases stored_cases h with ⟨hres, -⟩ | ⟨message, hres, -⟩ <;> cases hres

/-- A transaction that brought no notification into existence has not committed. -/
theorem commitNotification_uncommitted {creation : NotificationCreation τ id}
    {res : Except JsError Unit}
    (h : AppOp.exec (.notifications (.commitNotification creation.item creation.deliveries)) choice w =
      some (res, w'))
    (hnone : ((w.notifications.notifications.get id).isSome ||
      (w'.notifications.notifications.get id).isNone) = true) : SameExistence id w w' := by
  rcases commitNotification_cases h with hsame | ⟨habsent, hitems, -⟩
  · exact .of_eq hsame
  · rw [creation.named] at habsent hitems
    rw [habsent, hitems] at hnone
    simp at hnone

/-- After a delete that goes through there is no notification. -/
theorem deleteNotification_ok
    (h : AppOp.exec (.notifications (.deleteNotification id)) choice w = some (.ok (), w')) :
    w'.notifications.notifications.get id = none := by
  rcases stored_cases h with ⟨-, rfl⟩ | ⟨message, hres, -⟩
  · simp [Table.get_erase]
  · cases hres

/-- Deleting a delivery leaves the notifications alone. -/
theorem deleteDelivery_notifications {d : String} {res : Except JsError Unit}
    (h : AppOp.exec (.notifications (.deleteDelivery d)) choice w = some (res, w')) :
    w'.notifications.notifications = w.notifications.notifications := by
  rcases deleteDelivery_cases h with hw | hw <;> rw [hw]

/-- Deleting a delivery that is not there does nothing. -/
theorem deleteDelivery_absent {d : String} {res : Except JsError Unit}
    (h : AppOp.exec (.notifications (.deleteDelivery d)) choice w = some (res, w'))
    (hnone : w.notifications.deliveries.get d = none) : SameExistence id w w' := by
  rcases deleteDelivery_cases h with hw | hw
  · exact .of_eq hw
  · refine ⟨by rw [hw], fun d' => ?_⟩
    rw [hw]
    simp only [Table.get_erase]
    split
    · next hd =>
      rw [hd, hnone]
    · rfl

/-- What a step does to the notification, and where it leaves the process. -/
inductive CreationEffect (ph : CreationPhase) (step : (creationPlatform τ id).Step) :
    CreationPhase → Prop
  | same (hwritten : writtenBy step = none) (hsame : SameExistence id step.before step.after) :
      CreationEffect ph step ph
  | created {deliveries : List String} (hwritten : writtenBy step = some deliveries)
      (hph : ph = .resting) (hbefore : step.before.notifications.notifications.get id = none)
      (hafter : (step.after.notifications.notifications.get id).isSome = true)
      (hall : ∀ d ∈ deliveries, (step.after.notifications.deliveries.get d).isSome = true) :
      CreationEffect ph step .written
  | cleared (hwritten : writtenBy step = none)
      (hbefore : step.before.notifications.notifications.get id = none)
      (hafter : step.after.notifications.notifications.get id = none) : CreationEffect ph step ph
  | removing (hwritten : writtenBy step = none) (hph : ph ≠ .written)
      (hsame : step.after.notifications.notifications = step.before.notifications.notifications) :
      CreationEffect ph step .removing
  | removed (hwritten : writtenBy step = none) (hph : ph ≠ .written)
      (hafter : step.after.notifications.notifications.get id = none) :
      CreationEffect ph step .resting

theorem writtenBy_keeps {call : CreationCall τ id} {op : AppOp τ} {res : Except JsError (op.Out τ)}
    (hop : op.keepsExistence = true) :
    writtenBy (⟨call, op, res, w, w'⟩ : (creationPlatform τ id).Step) = none := by
  cases op with
  | notifications o => cases o <;> first | rfl | cases hop
  | _ => rfl

/-- **The effects are the only ones.** -/
theorem creationEffect {past : (creationPlatform τ id).History} {pid : Nat} {ph ph' : CreationPhase}
    {step : (creationPlatform τ id).Step} (hmove : CreationMove ph step ph')
    (hexec : AppOp.exec step.op choice step.before = some (step.res, step.after))
    (hcond : isUndisturbed past (.ran pid step) = true) : CreationEffect ph step ph' := by
  cases hmove with
  | keeps hop => exact .same (writtenBy_keeps hop) (sameExistence_exec hop hexec)
  | writes =>
    obtain ⟨hbefore, hafter, hall⟩ := commitNotification_ok hexec
    exact .created rfl rfl hbefore hafter hall
  | fails => exact .same rfl (commitNotification_uncommitted hexec hcond)
  | clears =>
    rcases Bool.or_eq_true_iff.mp hcond with hnone | habsent
    · rw [Option.isNone_iff_eq_none] at hnone
      refine .cleared rfl hnone ?_
      rw [deleteDelivery_notifications hexec]
      exact hnone
    · exact .same rfl (deleteDelivery_absent hexec (Option.isNone_iff_eq_none.mp habsent))
  | removes hph => exact .removing rfl hph (deleteDelivery_notifications hexec)
  | removed hph => exact .removed rfl hph (deleteNotification_ok hexec)
  | abortsDelivery => cases hcond
  | abortsNotification => cases hcond

end steps

/-! ## Runs -/

section runs

/-- The notification comes into existence where a creator writes it. -/
theorem CreationEffect.cameIntoExistence {ph ph' : CreationPhase}
    {step : (creationPlatform τ id).Step} (h : CreationEffect ph step ph') :
    (ph' = ph ∨ (ph ≠ .written ∧ ph' ≠ .written)) ∧ cameIntoExistence step = false ∨
    ph = .resting ∧ ph' = .written ∧ cameIntoExistence step = true := by
  cases h with
  | same _ hsame =>
    refine .inl ⟨.inl rfl, ?_⟩
    have hexists := hsame.notification
    unfold AppPort.cameIntoExistence
    rw [hexists]
    cases step.before.notifications.notifications.get id <;> rfl
  | created _ hph hbefore hafter _ =>
    refine .inr ⟨hph, rfl, ?_⟩
    simp [AppPort.cameIntoExistence, hbefore, hafter]
  | cleared _ _ hafter => exact .inl ⟨.inl rfl, by simp [AppPort.cameIntoExistence, hafter]⟩
  | removing _ hph hsame =>
    refine .inl ⟨.inr ⟨hph, nofun⟩, ?_⟩
    unfold AppPort.cameIntoExistence
    rw [hsame]
    cases step.before.notifications.notifications.get id <;> rfl
  | removed _ hph hafter =>
    exact .inl ⟨.inr ⟨hph, nofun⟩, by simp [AppPort.cameIntoExistence, hafter]⟩

/-- A process has brought the notification into existence once, if it has written it. -/
def CreationCounted (_ : World τ) (past : (creationPlatform τ id).History) (pid : Nat)
    (ph : CreationPhase) : Prop :=
  (ownSteps pid past).countP cameIntoExistence = if ph = .written then 1 else 0

theorem creationCounted_local : (creationProtocol τ id).LocalOver
    (fun past e => isUndisturbed past e = true) (fun _ _ _ => True)
    (fun _ _ => True) CreationCounted where
  spawn call _ hfresh := by
    unfold CreationCounted
    rw [ownSteps_fresh hfresh]
    rfl
  good _ := trivial
  own := by
    intro past phases pid step ph ph' h
    obtain ⟨choice, hexec⟩ := h.exec
    have hcount : (ownSteps pid past).countP cameIntoExistence = if ph = .written then 1 else 0 :=
      h.own
    unfold CreationCounted
    rw [ownSteps_same, List.countP_cons, hcount]
    rcases (creationEffect h.next hexec h.cond).cameIntoExistence with
      ⟨hph, hcame⟩ | ⟨rfl, rfl, hcame⟩
    · rw [hcame]
      rcases hph with rfl | ⟨hne, hne'⟩
      · simp
      · simp [hne, hne']
    · rw [hcame]
      simp
  other := by
    intro past phases pid step ph ph' q phq h hne hq
    have hcount := h.sound q phq hq
    unfold CreationCounted at hcount ⊢
    rw [ownSteps_other _ _ (Ne.symm hne)]
    exact hcount
  stopGood _ _ := trivial
  stopOther _ h := h
  envGood _ _ _ := trivial
  envSound _ _ h _ := h

/-- The notification is whole, or some deleter is between its deletes. -/
def WholeOrRemoving (start : List String) (w : World τ) (past : (creationPlatform τ id).History)
    (phases : (creationProtocol τ id).Phases) : Prop :=
  Whole id (ownDeliveries start past) w ∨ ∃ pid, phases pid = some .removing

/-- Whoever is between its deletes stays there while another process moves. -/
theorem removing_other {phases : (creationProtocol τ id).Phases} {pid q : Nat}
    {ph : Option CreationPhase} (hq : phases q = some .removing) (hne : phases pid ≠ some .removing) :
    Discipline.Phases.move phases pid ph q = some CreationPhase.removing := by
  rw [Discipline.Phases.move_other]
  · exact hq
  · rintro rfl
    exact hne hq

theorem wholeOrRemoving_inductive (start : List String) :
    (creationProtocol τ id).Inductive
      (fun past e => isUndisturbed past e = true ∧ ∀ pid call, e ≠ .stopped pid call)
      (WholeOrRemoving start) where
  spawn := by
    intro w past phases pid call _ h hnone _ _
    rcases h with hwhole | ⟨q, hq⟩
    · exact .inl hwhole
    · refine .inr ⟨q, removing_other hq ?_⟩
      rw [hnone]
      nofun
  step := by
    intro past phases pid ph ph' step choice _ h hph hexec hnext hcond
    cases creationEffect hnext hexec hcond.1 with
    | same hwritten hsame =>
      rcases h with hwhole | ⟨q, hq⟩
      · left
        unfold ownDeliveries
        rw [hwritten]
        exact hsame.whole hwhole
      · right
        by_cases hqp : q = pid
        · subst hqp
          rw [hph] at hq
          exact ⟨q, by rw [Discipline.Phases.move_same]; exact hq⟩
        · exact ⟨q, by rw [Discipline.Phases.move_other _ _ hqp]; exact hq⟩
    | created hwritten _ _ _ hall =>
      left
      unfold ownDeliveries
      rw [hwritten]
      exact fun _ => hall
    | cleared _ _ hafter | removed _ _ hafter =>
      left
      intro hexists
      rw [hafter] at hexists
      cases hexists
    | removing => exact .inr ⟨pid, Discipline.Phases.move_same ..⟩
  stop := by
    intro w past phases pid ph call _ _ _ hcond
    exact absurd rfl (hcond.2 pid call)
  env := by
    intro w w' past phases move _ h henv
    obtain rfl := Option.some.inj henv
    rcases h with hwhole | hremoving
    · exact .inl ((move.2 w).whole hwhole)
    · exact .inr hremoving

/-- **Creation is atomic**, where no leftover is deleted while the notification stands. -/
theorem creation_is_atomic {start : List String} {w : World τ}
    {as : List (creationPlatform τ id).Action} {c : (creationPlatform τ id).Config}
    (hstart : Whole id start w) (hrun : (creationPlatform τ id).run (Config.init w) as = some c)
    (hundisturbed : Always isUndisturbed c.past) (hreturned : allReturned c = true) :
    CreationAtomic start c := by
  constructor
  · have hnever : Throughout (fun past e => isUndisturbed past e = true ∧ ∀ pid call, e ≠ .stopped pid call)
        c.past := by
      refine throughout_of_split fun newer e older heq => ⟨?_, ?_⟩
      · rw [heq] at hundisturbed
        exact hundisturbed.split newer
      · rintro pid call rfl
        exact never_stopped hrun hreturned pid call
          (heq ▸ List.mem_append_right newer List.mem_cons_self)
    obtain ⟨phases, hholds, htracks⟩ := Discipline.sound creationProtocol_obeyed
      (wholeOrRemoving_inductive start) (.inl hstart) hrun hnever
    rcases hholds with hwhole | ⟨pid, hpid⟩
    · exact hwhole
    · obtain ⟨p, hproc, hconf⟩ := htracks.standing hpid
      obtain ⟨call, r, hsettled⟩ := proc_of_allReturned hreturned (proc_lt hproc)
      rw [hproc] at hsettled
      obtain rfl := Option.some.inj hsettled
      exact absurd rfl hconf.1
  · intro pid call r hproc
    obtain ⟨phases, hholds, htracks⟩ := Discipline.sound creationProtocol_obeyed
      creationCounted_local.toInductive ⟨trivial, fun _ _ h => by cases h⟩ hrun hundisturbed
    obtain ⟨ph, hph, hfinal⟩ := htracks.live pid _ hproc
    have hcount := hholds.2 pid ph hph
    unfold creationsOf
    rw [hcount]
    by_cases hw : ph = .written
    · rw [if_pos hw, if_pos (hfinal.2.mp hw)]
    · rw [if_neg hw, if_neg (mt hfinal.2.mpr hw)]

end runs

end platform

/-! ### Two creators and a leftover -/

instance (id : String) (deliveries : List String) (w : World τ) : Decidable (Whole id deliveries w) :=
  inferInstanceAs (Decidable (_ → ∀ d ∈ deliveries, _))

def welcomeDelivery : NotificationDelivery Nat where
  id := "d1"
  tenantId := "acme"
  notificationId := "n1"
  recipient := "ada"
  channel := "in-app"
  status := .pending
  idempotencyKey := "n1/in-app"
  attemptCount := 0
  maxAttempts := 3
  createdAt := 0

def welcome : NotificationCreation Nat "n1" where
  item := { id := "n1", tenantId := "acme", recipient := "ada", type := "welcome", title := "Welcome"
            priority := .normal, channels := ["in-app"], status := .pending, createdAt := 0 }
  deliveries := [welcomeDelivery]
  named := rfl

/-- The delivery of the notification, without it. -/
def leftover : World Nat :=
  { clock := 0, notifications := { deliveries := Table.empty.put "d1" welcomeDelivery } }

/-- One creator after the other, over a leftover. -/
def createdOnce : List (creationPlatform Nat "n1").Action :=
  [.spawn (.create welcome), .spawn (.create welcome)] ++
    (List.replicate 5 0 ++ List.replicate 2 1).map fun pid => .step pid .proceed

theorem creation_is_atomic_leftover :
    ∃ c, (creationPlatform Nat "n1").run (Config.init leftover) createdOnce = some c ∧
      (c.world.notifications.notifications.get "n1").isSome = true ∧ CreationAtomic [] c := by
  obtain ⟨c, hrun, hc⟩ : ∃ c, (creationPlatform Nat "n1").run (Config.init leftover) createdOnce =
      some c ∧ ((c.world.notifications.notifications.get "n1").isSome &&
        decide (Always isUndisturbed c.past) && allReturned c) = true :=
    exists_of_run (by decide +kernel)
  simp only [Bool.and_eq_true, decide_eq_true_eq] at hc
  obtain ⟨⟨hexists, hundisturbed⟩, hreturned⟩ := hc
  have hstart : Whole "n1" [] leftover := by decide
  exact ⟨c, hrun, hexists, creation_is_atomic hstart hrun hundisturbed hreturned⟩

/-- The first creator fails over the leftover, and finds no notification. Before it looks at
the deliveries the second one clears the leftover and writes both. -/
def deletesFresh : List (creationPlatform Nat "n1").Action :=
  [.spawn (.create welcome), .spawn (.create welcome)] ++
    (List.replicate 2 0 ++ List.replicate 5 1 ++ List.replicate 3 0).map fun pid => .step pid .proceed

/-- The first one then deletes the fresh delivery, and the notification stands without it. -/
theorem deletesFresh_not_atomic :
    ∃ c, (creationPlatform Nat "n1").run (Config.init leftover) deletesFresh = some c ∧
      allReturned c = true ∧ (c.world.notifications.notifications.get "n1").isSome = true ∧
      c.world.notifications.deliveries.get "d1" = none ∧ ¬ CreationAtomic [] c := by
  obtain ⟨c, hrun, hc⟩ : ∃ c, (creationPlatform Nat "n1").run (Config.init leftover) deletesFresh =
      some c ∧ (allReturned c && (c.world.notifications.notifications.get "n1").isSome &&
        (c.world.notifications.deliveries.get "d1").isNone &&
        !decide (Whole "n1" (ownDeliveries [] c.past) c.world)) = true :=
    exists_of_run (by decide +kernel)
  simp only [Bool.and_eq_true, Bool.not_eq_true', decide_eq_false_iff_not,
    Option.isNone_iff_eq_none] at hc
  obtain ⟨⟨⟨hreturned, hexists⟩, hgone⟩, hwhole⟩ := hc
  exact ⟨c, hrun, hreturned, hexists, hgone, fun hatomic => hwhole hatomic.whole⟩

end AppPort
