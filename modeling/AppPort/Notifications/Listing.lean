import Mathlib.Algebra.Order.Ring.Unbundled.Rat
import Mathlib.Data.List.Lex
import Mathlib.Data.Prod.Lex
import Mathlib.Order.Compare
import AppPort.Authority.Json
import AppPort.Lib.Base64url
import AppPort.Lib.Paging
import AppPort.Notifications.Service
import AppPort.Notifications.Writes
import AppPort.Runtime.Alone

/-!
# Listing notifications

`NotificationService.list`, and what a caller gets who follows its cursors while others
change the store. A cursor is a position, a creation time and an id, and not a member: so a
walk does not depend on what becomes of the notification it stopped at.

A page is sorted by `localeCompare` and cut by `<` on texts. The two agree on the times and
ids that are stored; this is a hypothesis on the collation, as it is one on `JSON.parse`
that it reads what `JSON.stringify` wrote.
-/

namespace AppPort

open Effects

variable {τ : Type}

/-! ## The order of texts -/

/-- The code units of one character. -/
def charUnits (c : Char) : List Nat :=
  let n := c.toNat
  if n < 0x10000 then [n] else [0xD800 + (n - 0x10000) / 0x400, 0xDC00 + (n - 0x10000) % 0x400]

theorem jsUnits_eq (s : String) : jsUnits s = s.toList.flatMap charUnits := rfl

theorem toNat_valid (c : Char) : c.toNat < 0xD800 ∨ 0xDFFF < c.toNat ∧ c.toNat < 0x110000 :=
  c.valid

theorem char_eq_of_toNat {c d : Char} (h : c.toNat = d.toNat) : c = d := by
  rw [← Char.ofNat_toNat c, ← Char.ofNat_toNat d, h]

/-- **A character is told by the units a text begins with**: the first of a pair stands for
no character of its own. -/
theorem charUnits_cancel {c d : Char} {r r' : List Nat}
    (h : charUnits c ++ r = charUnits d ++ r') : c = d ∧ r = r' := by
  have hc := toNat_valid c
  have hd := toNat_valid d
  unfold charUnits at h
  dsimp only at h
  split at h
  · split at h
    · simp only [List.cons_append, List.nil_append, List.cons.injEq] at h
      exact ⟨char_eq_of_toNat h.1, h.2⟩
    · simp only [List.cons_append, List.nil_append, List.cons.injEq] at h
      omega
  · split at h
    · simp only [List.cons_append, List.nil_append, List.cons.injEq] at h
      omega
    · simp only [List.cons_append, List.nil_append, List.cons.injEq] at h
      obtain ⟨hhigh, hlow, hrest⟩ := h
      exact ⟨char_eq_of_toNat (by omega), hrest⟩

theorem charUnits_ne_nil (c : Char) : charUnits c ≠ [] := by
  unfold charUnits
  dsimp only
  split <;> simp

theorem flatMap_charUnits_cancel : (a b : List Char) →
    a.flatMap charUnits = b.flatMap charUnits → a = b
  | [], [], _ => rfl
  | [], d :: b, h => by simp [List.flatMap_cons, charUnits_ne_nil] at h
  | c :: a, [], h => by simp [List.flatMap_cons, charUnits_ne_nil] at h
  | c :: a, d :: b, h => by
    rw [List.flatMap_cons, List.flatMap_cons] at h
    obtain ⟨rfl, hrest⟩ := charUnits_cancel h
    rw [flatMap_charUnits_cancel a b hrest]

theorem jsUnits_injective : Function.Injective jsUnits := by
  intro s t h
  rw [jsUnits_eq, jsUnits_eq] at h
  exact String.toList_inj.mp (flatMap_charUnits_cancel _ _ h)

/-- A text in the order of `<`: by its code units. -/
structure CodeUnits where
  text : String
  deriving DecidableEq, Repr

theorem CodeUnits.units_injective : Function.Injective fun t : CodeUnits => jsUnits t.text := by
  intro a b h
  cases a
  cases b
  exact congrArg CodeUnits.mk (jsUnits_injective h)

instance : LinearOrder CodeUnits := LinearOrder.lift' _ CodeUnits.units_injective

theorem CodeUnits.lt_iff {a b : CodeUnits} : a < b ↔ jsUnits a.text < jsUnits b.text := Iff.rfl

/-- `a < b`. -/
def textBefore (a b : String) : Bool := decide ((⟨a⟩ : CodeUnits) < ⟨b⟩)

/-! ## The options -/

/-- A number, as far as listing looks into it: `NaN` and the infinities are not finite. -/
inductive JsNumber where
  | finite (value : ℚ)
  | notFinite
  deriving DecidableEq, Repr

structure NotificationListOptions where
  recipient : Option String := none
  unread : Bool := false
  unacknowledged : Bool := false
  status : Option String := none
  type : Option String := none
  priority : Option String := none
  sourceType : Option String := none
  createdAfter : Option String := none
  createdBefore : Option String := none
  cursor : Option String := none
  limit : Option JsNumber := none
  deriving DecidableEq, Repr

structure NotificationPage (τ : Type) where
  items : List (Notification τ)
  nextCursor : Option String := none

/-- What listing uses of `Intl`, `Buffer` and `JSON`. -/
structure NotificationRuntime where
  /-- `a.localeCompare(b)`. -/
  localeCompare : String → String → Ordering
  /-- `bytes.toString('utf8')`. -/
  bufferText : List UInt8 → String
  /-- `JSON.parse(text)`; `none` where that throws. -/
  parseJson : String → Option JsValue

def NotificationStatus.text : NotificationStatus → String
  | .pending => "pending"
  | .delivered => "delivered"
  | .failed => "failed"
  | .read => "read"
  | .acknowledged => "acknowledged"
  | .expired => "expired"

def NotificationPriority.text : NotificationPriority → String
  | .low => "low"
  | .normal => "normal"
  | .high => "high"
  | .urgent => "urgent"

/-- `STATUSES`. -/
def STATUSES : List String :=
  ["pending", "delivered", "failed", "read", "acknowledged", "expired"]

namespace NotificationService

/-! ## Cursors -/

structure Cursor where
  createdAt : String
  id : String
  deriving DecidableEq, Repr

/-- Cursors stand in the order of the listing: the latest first. -/
def Cursor.key (c : Cursor) : (CodeUnits ×ₗ CodeUnits)ᵒᵈ :=
  OrderDual.toDual (toLex (⟨c.createdAt⟩, ⟨c.id⟩))

theorem Cursor.key_injective : Function.Injective Cursor.key := by
  rintro ⟨createdAt, id⟩ ⟨createdAt', id'⟩ h
  have hpair := Prod.mk.inj (toLex.injective (OrderDual.toDual.injective h))
  rw [Cursor.mk.injEq]
  exact ⟨CodeUnits.mk.inj hpair.1, CodeUnits.mk.inj hpair.2⟩

instance : LinearOrder Cursor := LinearOrder.lift' Cursor.key Cursor.key_injective

theorem Cursor.lt_iff {c d : Cursor} : c < d ↔
    (⟨d.createdAt⟩ : CodeUnits) < ⟨c.createdAt⟩ ∨
      d.createdAt = c.createdAt ∧ (⟨d.id⟩ : CodeUnits) < ⟨c.id⟩ := by
  have hkey : c < d ↔ toLex ((⟨d.createdAt⟩ : CodeUnits), (⟨d.id⟩ : CodeUnits)) <
      toLex (⟨c.createdAt⟩, ⟨c.id⟩) := Iff.rfl
  rw [hkey, Prod.Lex.toLex_lt_toLex, CodeUnits.mk.injEq]

/-- `JSON.stringify({ createdAt, id })`. -/
def cursorJson (cursor : Cursor) : String :=
  "\x7b" ++ quoteJson "createdAt" ++ ":" ++ quoteJson cursor.createdAt ++ "," ++ quoteJson "id" ++
    ":" ++ quoteJson cursor.id ++ "\x7d"

/-- `encodeCursor`. -/
def encodeCursor (cursor : Cursor) : String := Base64url.encode (utf8 (cursorJson cursor))

/-- `decodeCursor`. -/
def decodeCursor (node : NotificationRuntime) (cursor : String) : Except JsError Cursor :=
  match node.parseJson (node.bufferText (Base64url.decode cursor)) with
  | none => .error (.other "Invalid cursor")
  | some value =>
    match value.prop "createdAt", value.prop "id" with
    | .str createdAt, .str id => .ok { createdAt, id }
    | _, _ => .error (.other "Invalid cursor")

section filter

variable [Timestamp τ]

/-- Where a notification stands in a listing. -/
def placeOf (item : Notification τ) : Cursor where
  createdAt := Timestamp.text item.createdAt
  id := item.id

/-- `afterCursor`. -/
def afterCursor (item : Notification τ) (cursor : Cursor) : Bool :=
  textBefore (Timestamp.text item.createdAt) cursor.createdAt ||
    (Timestamp.text item.createdAt == cursor.createdAt && textBefore item.id cursor.id)

/-! ## The page -/

/-- The filter of `list`, the cursor apart: an option that is missing or empty selects
everything. -/
def selects (options : NotificationListOptions) (item : Notification τ) : Bool :=
  (!options.unread || item.readAt.isNone) &&
  (!options.unacknowledged || item.acknowledgedAt.isNone) &&
  (keepPresent options.status).all (fun s => item.status.text == s) &&
  (keepPresent options.type).all (fun s => item.type == s) &&
  (keepPresent options.priority).all (fun s => item.priority.text == s) &&
  (keepPresent options.sourceType).all (fun s => item.source.map NotificationSource.type == some s) &&
  (keepPresent options.createdAfter).all (fun s => textBefore s (Timestamp.text item.createdAt)) &&
  (keepPresent options.createdBefore).all fun s => textBefore (Timestamp.text item.createdAt) s

/-- `b.createdAt.localeCompare(a.createdAt) || b.id.localeCompare(a.id)` is not positive. -/
def listedBefore (node : NotificationRuntime) (a b : Notification τ) : Bool :=
  ((node.localeCompare (Timestamp.text b.createdAt) (Timestamp.text a.createdAt)).then
    (node.localeCompare b.id a.id)) != .gt

/-- `Math.min(Math.max(Number.isFinite(limit) ? Number(limit) : 50, 1), 100)`. -/
def pageLimit (limit : Option JsNumber) : ℚ :=
  let asked : ℚ := match limit with
    | some (.finite value) => value
    | _ => 50
  min (max asked 1) 100

/-- What `slice` takes. -/
def sliceLimit (limit : Option JsNumber) : Nat := (pageLimit limit).floor.toNat

theorem one_le_pageLimit (limit : Option JsNumber) : 1 ≤ pageLimit limit := by
  refine le_min (le_max_right _ _) ?_
  decide

/-- The length is compared with the limit as with what `slice` takes. -/
theorem pageLimit_lt {limit : Option JsNumber} {n : Nat} :
    pageLimit limit < n ↔ sliceLimit limit < n := by
  have hone : 1 ≤ (pageLimit limit).floor := Rat.le_floor_iff.mpr (one_le_pageLimit limit)
  have hfloor : (pageLimit limit).floor < (n : Int) ↔ pageLimit limit < n := by
    rw [Rat.floor_lt_iff, Rat.intCast_natCast]
  rw [← hfloor, sliceLimit]
  omega

theorem sliceLimit_pos (limit : Option JsNumber) : 0 < sliceLimit limit := by
  have hone : 1 ≤ (pageLimit limit).floor := Rat.le_floor_iff.mpr (one_le_pageLimit limit)
  rw [sliceLimit]
  omega

/-- The page of `list`. -/
def pageOf (node : NotificationRuntime) (options : NotificationListOptions)
    (cursor : Option Cursor) (materialized : List (Notification τ)) : NotificationPage τ :=
  let filtered := (materialized.filter fun item =>
    selects options item && cursor.all fun c => afterCursor item c).mergeSort (listedBefore node)
  let page := filtered.take (sliceLimit options.limit)
  { items := page
    nextCursor :=
      if pageLimit options.limit < filtered.length then
        page.getLast?.map fun item => encodeCursor (placeOf item)
      else none }

/-! ## The listing -/

/-- `Promise.all` of `materialize`, one after the other. -/
def materializeAll : List (Notification τ) → Svc τ (List (Notification τ))
  | [] => pure []
  | item :: rest => do
    let first ← materialize item
    let others ← materializeAll rest
    pure (first :: others)

variable (service : NotificationService τ)

/-- `authorizeTenant` for `notifications.read`: who reads any notification reads. -/
def authorizeListing (principal : LegacyPrincipal) (tenantId : String) : Except JsError Unit :=
  if principal.principalId = "" ∨ principal.tenantId = "" ∨ principal.tenantId ≠ tenantId ∨
      (principal.hasScope "notifications.read" || principal.hasScope "notifications.read:any") =
        false then .error NotificationAuthorizationError
  else .ok ()

/-- The recipient whose notifications the compatibility rules list. -/
def listedRecipient (options : NotificationListOptions) (principal : LegacyPrincipal) :
    Option String :=
  if principal.hasScope "notifications.read:any" then options.recipient
  else some principal.principalId

/-- The notification is one of those that `authorizedList` answers with. -/
def lists (tenantId : String) (options : NotificationListOptions) (legacy : LegacyPrincipal)
    (item : Notification τ) : Bool :=
  item.tenantId == tenantId &&
  match service.authority with
  | some gateway =>
    item.applicationId == some gateway.application &&
      (keepPresent options.recipient).all fun r => item.recipient == r
  | none => (keepPresent (listedRecipient options legacy)).all fun r => item.recipient == r

/-- `authorizedList`; `legacy` is the caller as the compatibility rules see it. -/
def authorizedList (tenantId : String) (options : NotificationListOptions) (caller : PrincipalInput)
    (legacy : LegacyPrincipal) : Svc τ (List (Notification τ)) :=
  match service.authority with
  | some gateway => do
    let verified ← requireVerifiedPrincipal caller
    let tenant ← check (resolveTenant (some tenantId) verified)
    gateway.execute "notifications.read" (.of verified)
      { type := "notification", tenantId := tenant
        attributes := [("recipient", options.recipient.getD "*")] }
      { service := "notifications" } fun _ _ => pure ()
    let items : List (Notification τ) ← (NotificationOp.listNotifications tenant).perform
    pure (items.filter fun item => item.applicationId == some gateway.application &&
      (keepPresent options.recipient).all fun r => item.recipient == r)
  | none => do
    check (authorizeListing legacy tenantId)
    if (keepPresent options.recipient).any (fun r => r ≠ legacy.principalId) ∧
        legacy.hasScope "notifications.read:any" = false then throw NotificationAuthorizationError
    else do
      let items : List (Notification τ) ← (NotificationOp.listNotifications tenantId).perform
      pure (items.filter fun item =>
        (keepPresent (listedRecipient options legacy)).all fun r => item.recipient == r)

/-- `list`. -/
def list (node : NotificationRuntime) (tenantId : String) (options : NotificationListOptions)
    (caller : PrincipalInput) (legacy : LegacyPrincipal) : Svc τ (NotificationPage τ) :=
  if (keepPresent options.status).any (fun s => s ∉ STATUSES) then throw (.other "Invalid status")
  else do
    let cursor ← check (match keepPresent options.cursor with
      | none => .ok none
      | some cursor => (decodeCursor node cursor).map some)
    let items ← service.authorizedList tenantId options caller legacy
    let materialized ← materializeAll items
    pure (pageOf node options cursor materialized)

/-! ## What a call of `list` answers, by itself -/

/-- The notification has expired, and is not yet stored as expired. -/
def hasExpired (t : τ) (item : Notification τ) : Bool :=
  item.expiresAt.any (fun expiresAt => expiresAt ≤ t) && canExpire item

/-- What `materialize` makes of a notification that is stored. -/
def materialized (t : τ) (item : Notification τ) : Notification τ :=
  if hasExpired t item then
    ({ status := some .expired, expiredAt := some (some t) } : NotificationUpdate τ).written item
  else item

@[simp] theorem materialized_id (t : τ) (item : Notification τ) :
    (materialized t item).id = item.id := by
  unfold materialized
  split <;> rfl

@[simp] theorem materialized_createdAt (t : τ) (item : Notification τ) :
    (materialized t item).createdAt = item.createdAt := by
  unfold materialized
  split <;> rfl

/-- Nothing but the record of one notification was written. -/
structure OthersStand (id : String) (w w' : World τ) : Prop where
  clock : w'.clock = w.clock
  others : ∀ id', id' ≠ id →
    w'.notifications.notifications.get id' = w.notifications.notifications.get id'

omit [Timestamp τ] in
theorem OthersStand.of_same {id : String} {w w' : World τ} (hclock : w'.clock = w.clock)
    (h : w'.notifications = w.notifications) : OthersStand id w w' :=
  ⟨hclock, fun _ _ => by rw [h]⟩

/-- The audit trail is no record. -/
theorem ensures_audit (w : World τ) (type : String) (item : Notification τ) (principalId : String)
    (delivery : Option (NotificationDelivery τ)) :
    (audit type item principalId delivery).Ensures (alone τ) w fun _ w' =>
      w'.clock = w.clock ∧ w'.notifications = w.notifications := by
  have hauthority : authorityCalls ⊆ {op : AppOp τ | op.leavesRecords = true} := by
    rintro op ⟨o, rfl⟩
    rfl
  have huses : Task.Uses (S := services τ) {op : AppOp τ | op.leavesRecords = true}
      (audit type item principalId delivery) := by
    unfold audit
    refine Task.Uses.bind (uses_randomUUID.mono hauthority) fun _ => ?_
    exact Task.Uses.bind (uses_now.mono hauthority) fun _ => Task.uses_perform rfl
  refine Task.Ensures.of_uses ?_ ?_ huses ⟨rfl, rfl⟩
  · rintro op hop w₁ res w₂ ⟨hclock, hsame⟩ ⟨choice, hexec⟩
    exact ⟨(exec_clock hexec).trans hclock, (leavesRecords_exec hop hexec).trans hsame⟩
  · rintro w₁ w₂ h rfl
    exact h

theorem ensures_storedNotification (w : World τ) (tenantId id : String) :
    (storedNotification tenantId id).Ensures (alone τ) w fun r w' => w' = w ∧
      ∀ found, r = .ok found →
        found = (w.notifications.notifications.get id).filter fun n => n.tenantId == tenantId := by
  have hread : ∀ choice, AppOp.exec (.notifications (.getNotification id)) choice w =
      stored choice w (.ok (w.notifications.notifications.get id), w) := fun _ => rfl
  unfold storedNotification
  refine Task.Ensures.bind (ensures_alone_stored _ hread) ?_ ?_
  · rintro found w₁ ⟨rfl, hfound⟩
    obtain rfl := hfound found rfl
    exact ⟨rfl, fun found hfound => (Except.ok.inj hfound).symm⟩
  · rintro e w₁ ⟨rfl, -⟩
    exact ⟨rfl, fun _ h => by cases h⟩

theorem ensures_view (w : World τ) (item : Notification τ) :
    (view item).Ensures (alone τ) w fun r w' => w' = w ∧ ∀ viewed, r = .ok viewed →
      viewed = if hasExpired w.clock item then { item with status := .expired } else item := by
  unfold view hasExpired
  cases hexpires : item.expiresAt with
  | none => exact ⟨rfl, fun viewed h => (Except.ok.inj h).symm⟩
  | some expiresAt =>
    refine Task.Ensures.bind (ensures_alone_now w) ?_ ?_
    · rintro t w₁ ⟨rfl, ht⟩
      obtain rfl := ht t rfl
      refine ⟨rfl, fun viewed h => ?_⟩
      rw [← Except.ok.inj h]
      simp
    · rintro e w₁ ⟨rfl, -⟩
      exact ⟨rfl, fun _ h => by cases h⟩

theorem ensures_expiryChange (w : World τ) (item : Notification τ) :
    (expiryChange item).Ensures (alone τ) w fun r w' => w' = w ∧ ∀ updates, r = .ok updates →
      updates = if hasExpired w.clock item then
        some { status := some .expired, expiredAt := some (some w.clock) } else none := by
  unfold expiryChange hasExpired
  cases hexpires : item.expiresAt with
  | none => exact ⟨rfl, fun updates h => (Except.ok.inj h).symm⟩
  | some expiresAt =>
    refine Task.Ensures.bind (ensures_alone_now w) ?_ ?_
    · rintro t w₁ ⟨rfl, ht⟩
      obtain rfl := ht t rfl
      split
      · next hexpired =>
        refine Task.Ensures.bind (ensures_alone_now w₁) ?_ ?_
        · rintro t w₂ ⟨rfl, ht⟩
          obtain rfl := ht t rfl
          refine ⟨rfl, fun updates h => ?_⟩
          rw [← Except.ok.inj h]
          simp [hexpired]
        · rintro e w₂ ⟨rfl, -⟩
          exact ⟨rfl, fun _ h => by cases h⟩
      · next hnot =>
        refine ⟨rfl, fun updates h => ?_⟩
        rw [← Except.ok.inj h]
        simp only [Option.any_some, Bool.and_eq_true, decide_eq_true_eq]
        rw [if_neg hnot]
    · rintro e w₁ ⟨rfl, -⟩
      exact ⟨rfl, fun _ h => by cases h⟩

omit [Timestamp τ] in
theorem OthersStand.trans {id : String} {w₁ w₂ w₃ : World τ} (h : OthersStand id w₁ w₂)
    (h' : OthersStand id w₂ w₃) : OthersStand id w₁ w₃ :=
  ⟨h'.clock.trans h.clock, fun id' hne => (h'.others id' hne).trans (h.others id' hne)⟩

theorem hasExpired_materialized (t : τ) (item : Notification τ) :
    hasExpired t (materialized t item) = false := by
  unfold materialized
  split
  · simp [hasExpired, canExpire, NotificationUpdate.written, NotificationUpdate.apply]
  · next hnot => simpa using hnot

/-- By itself, a transition of a notification that has expired goes through at once. -/
theorem ensures_transition {w : World τ} {item : Notification τ}
    (hget : w.notifications.notifications.get item.id = some item)
    (hexpired : hasExpired w.clock item = true) (type : String) (attempts : Nat) :
    (transitionAtClock item.tenantId item.id expiryChange type (attempts + 1)).Ensures (alone τ) w
      fun r w' => OthersStand item.id w w' ∧ ∀ u, r = .ok u →
        w'.notifications.notifications.get item.id = some (materialized w.clock item) := by
  rw [transitionAtClock]
  refine Task.Ensures.bind (ensures_storedNotification w _ _) ?_ ?_
  · rintro found w₁ ⟨rfl, hfound⟩
    obtain rfl : found = some item := by
      rw [hfound found rfl, hget]
      simp
    refine Task.Ensures.bind (ensures_expiryChange w₁ item) ?_ ?_
    · rintro updates w₂ ⟨rfl, hupdates⟩
      obtain rfl := hupdates updates rfl
      rw [if_pos hexpired]
      refine Task.Ensures.bind (Q := fun r w' => OthersStand item.id w₂ w' ∧ ∀ u, r = .ok u →
        u.isSome = true ∧ w'.notifications.notifications.get item.id =
          some (materialized w₂.clock item)) ?_ ?_ ?_
      · refine Task.ensures_perform ?_
        rintro w₃ res w₄ rfl ⟨choice, hexec⟩
        have hclock := exec_clock hexec
        rcases updateNotification_cases hexec with
          ⟨hsame, hstale, hnone⟩ | ⟨item', hget', -, hput, hsome⟩
        · refine ⟨.of_same hclock hsame, ?_⟩
          rintro (_ | updated) rfl
          · exact absurd rfl (hstale rfl item hget)
          · exact absurd rfl (hnone updated)
        · obtain rfl := Option.some.inj (hget.symm.trans hget')
          refine ⟨⟨hclock, fun id' hne => ?_⟩, ?_⟩
          · rw [hput]
            exact Table.get_put_other _ _ hne
          · rintro (_ | updated) rfl
            · exact absurd rfl hsome
            · refine ⟨rfl, ?_⟩
              rw [hput, materialized, if_pos hexpired]
              exact Table.get_put_same _ _ _
      · rintro updated w₃ ⟨hothers, hwritten⟩
        obtain ⟨hsome, hget'⟩ := hwritten updated rfl
        obtain ⟨updated, rfl⟩ := Option.isSome_iff_exists.mp hsome
        refine (ensures_audit w₃ _ _ _ _).mono ?_
        rintro r w₄ ⟨hclock, hsame⟩
        refine ⟨hothers.trans (.of_same hclock hsame), fun _ _ => ?_⟩
        rw [hsame]
        exact hget'
      · exact fun e w₃ h => ⟨h.1, fun _ hu => by cases hu⟩
    · rintro e w₂ ⟨rfl, -⟩
      exact ⟨.of_same rfl rfl, fun _ h => by cases h⟩
  · rintro e w₁ ⟨rfl, -⟩
    exact ⟨.of_same rfl rfl, fun _ h => by cases h⟩

/-- **`materialize` of a stored notification.** -/
theorem ensures_materialize {w : World τ} {item : Notification τ}
    (hget : w.notifications.notifications.get item.id = some item) :
    (materialize item).Ensures (alone τ) w fun r w' => OthersStand item.id w w' ∧
      ∀ shown, r = .ok shown → shown = materialized w.clock item := by
  have hview : ∀ (viewed : Notification τ) (w₁ : World τ), OthersStand item.id w w₁ →
      hasExpired w₁.clock viewed = false →
      (view viewed).Ensures (alone τ) w₁ fun r w' => OthersStand item.id w w' ∧
        ∀ shown, r = .ok shown → shown = viewed := by
    intro viewed w₁ hothers hnot
    refine (ensures_view w₁ viewed).mono ?_
    rintro r w₂ ⟨rfl, hshown⟩
    refine ⟨hothers, fun shown hr => ?_⟩
    rw [hshown shown hr, hnot]
    rfl
  unfold materialize
  split
  · next hnever =>
    have hnot : hasExpired w.clock item = false := by
      simp [hasExpired, hnever]
    rw [materialized, hnot]
    exact hview item w (.of_same rfl rfl) hnot
  · next expiresAt hexpires =>
    refine Task.Ensures.bind (ensures_alone_now w) ?_ ?_
    · rintro t w₁ ⟨rfl, ht⟩
      obtain rfl := ht t rfl
      have hiff : hasExpired w₁.clock item = true ↔ expiresAt ≤ w₁.clock ∧ canExpire item = true := by
        simp [hasExpired, hexpires]
      split
      · next hdue =>
        have hexpired := hiff.mpr hdue
        refine Task.Ensures.bind (ensures_transition hget hexpired _ _) ?_ ?_
        · rintro _ w₂ ⟨hothers, hwritten⟩
          have hget' := hwritten () rfl
          refine Task.Ensures.bind (ensures_storedNotification w₂ _ _) ?_ ?_
          · rintro found w₃ ⟨rfl, hfound⟩
            have htenant : (materialized w₁.clock item).tenantId = item.tenantId := by
              unfold materialized
              split <;> rfl
            obtain rfl : found = some (materialized w₁.clock item) := by
              rw [hfound found rfl, hget']
              simp [htenant]
            refine hview _ w₃ hothers ?_
            rw [hothers.clock]
            exact hasExpired_materialized _ _
          · rintro e w₃ ⟨rfl, -⟩
            exact ⟨hothers, fun _ h => by cases h⟩
        · exact fun e w₂ h => ⟨h.1, fun _ hu => by cases hu⟩
      · next hnot =>
        have hnotExpired : hasExpired w₁.clock item = false := by
          rw [Bool.eq_false_iff]
          exact fun h => hnot (hiff.mp h)
        rw [materialized, hnotExpired]
        exact hview item w₁ (.of_same rfl rfl) hnotExpired
    · rintro e w₁ ⟨rfl, -⟩
      exact ⟨.of_same rfl rfl, fun _ h => by cases h⟩

theorem ensures_materializeAll : {items : List (Notification τ)} → {w : World τ} →
    (items.map Notification.id).Nodup →
    (∀ item ∈ items, w.notifications.notifications.get item.id = some item) →
    (materializeAll items).Ensures (alone τ) w fun r _ =>
      ∀ shown, r = .ok shown → shown = items.map (materialized w.clock)
  | [], _, _, _ => fun shown h => (Except.ok.inj h).symm
  | item :: rest, w, hnodup, hstored => by
    rw [List.map_cons, List.nodup_cons] at hnodup
    refine Task.Ensures.bind (ensures_materialize (hstored item List.mem_cons_self)) ?_ ?_
    · rintro first w₁ ⟨hothers, hfirst⟩
      obtain rfl := hfirst first rfl
      have hrest : ∀ other ∈ rest,
          w₁.notifications.notifications.get other.id = some other := by
        intro other hother
        rw [hothers.others other.id fun heq => hnodup.1 (heq ▸ List.mem_map_of_mem hother)]
        exact hstored other (List.mem_cons_of_mem _ hother)
      refine Task.Ensures.bind (ensures_materializeAll hnodup.2 hrest) ?_ ?_
      · intro others w₂ hshown shown h
        rw [← Except.ok.inj h, hshown others rfl, hothers.clock]
        rfl
      · exact fun e w₂ _ shown h => by cases h
    · exact fun e w₁ _ shown h => by cases h

/-- An effect that does nothing is authorized, and nothing else. -/
theorem ensures_nothing {w w' : World τ} (hsame : SameStores w w') (gateway : ServiceGateway)
    (name : String) (input : PrincipalInput) (resource : ServiceResource) (options : ExecuteOptions) :
    (gateway.execute name input resource options fun _ _ => (pure () : Svc τ Unit)).Ensures (alone τ)
      w' fun _ w'' => SameStores w w'' := by
  have hbody : ∀ (context : ServiceExecutionContext τ) (tools : EffectTools τ) (w₁ : World τ),
      SameStores w w₁ → (pure () : Svc τ Unit).Ensures (alone τ) w₁ fun r w₂ =>
        SameStores w w₂ ∧ ∀ a, r = .ok a → True :=
    fun _ _ _ h => ⟨h, fun _ _ => trivial⟩
  exact (ensures_execute_keeping (sameStores_kept w).gateway hbody hsame).mono fun _ _ h => h.1

variable {service}

theorem ensures_authorizedList {tenantId : String} {options : NotificationListOptions}
    {caller : PrincipalInput} {legacy : LegacyPrincipal} (w : World τ) :
    (service.authorizedList tenantId options caller legacy).Ensures (alone τ) w fun r w' =>
      SameStores w w' ∧ ∀ items, r = .ok items →
        items = w.notifications.notifications.find (service.lists tenantId options legacy) := by
  have hread : ∀ (tenant : String) (w₁ : World τ) choice,
      AppOp.exec (.notifications (.listNotifications tenant)) choice w₁ =
        stored choice w₁
          (.ok (w₁.notifications.notifications.find fun n => n.tenantId == tenant), w₁) :=
    fun _ _ _ => rfl
  unfold authorizedList
  split
  · next gateway hauthority =>
    have hkept := (sameStores_kept w).ensures (uses_requireVerifiedPrincipal caller)
      (SameStores.refl w)
    refine Task.Ensures.bind hkept ?_ (fun e _ h => kept_error h e)
    intro verified w₁ hsame
    refine Task.Ensures.bind (Task.ensures_ofExcept _ w₁) ?_ ?_
    · rintro tenant w₂ ⟨htenant, rfl⟩
      obtain ⟨-, hnone | htenant⟩ := resolveTenant_eq_ok.mp htenant.symm
      · cases hnone
      obtain rfl := Option.some.inj htenant
      refine Task.Ensures.bind (ensures_nothing hsame _ _ _ _ _) ?_ (fun e _ h => kept_error h e)
      intro _ w₃ hsame'
      refine Task.Ensures.bind (ensures_alone_stored _ (hread tenantId w₃)) ?_ ?_
      · rintro items w₄ ⟨rfl, hitems⟩
        obtain rfl := hitems items rfl
        refine ⟨hsame', fun items h => ?_⟩
        rw [← Except.ok.inj h, hsame'.notifications]
        rw [Table.find, List.filter_filter]
        refine List.filter_congr fun item _ => ?_
        rw [lists, hauthority]
        exact Bool.and_comm _ _
      · rintro e w₄ ⟨rfl, -⟩
        exact kept_error hsame' e
    · rintro e w₂ ⟨-, rfl⟩
      exact kept_error hsame e
  · next hauthority =>
    refine Task.Ensures.bind (Task.ensures_ofExcept _ w) ?_ ?_
    · rintro _ w₁ ⟨-, rfl⟩
      split
      · exact kept_error (SameStores.refl w₁) _
      · refine Task.Ensures.bind (ensures_alone_stored _ (hread tenantId w₁)) ?_ ?_
        · rintro items w₂ ⟨rfl, hitems⟩
          obtain rfl := hitems items rfl
          refine ⟨SameStores.refl w₂, fun items h => ?_⟩
          rw [← Except.ok.inj h]
          rw [Table.find, List.filter_filter]
          refine List.filter_congr fun item _ => ?_
          rw [lists, hauthority]
          exact Bool.and_comm _ _
        · rintro e w₂ ⟨rfl, -⟩
          exact kept_error (SameStores.refl w₂) e
    · rintro e w₁ ⟨-, rfl⟩
      exact kept_error (SameStores.refl w₁) e

/-- Each notification is stored once, under its id. -/
structure NotificationsNamed (w : World τ) : Prop where
  nodup : w.notifications.notifications.keys.Nodup
  named : ∀ id item, w.notifications.notifications.get id = some item → item.id = id

section named

variable {w w' : World τ}

omit [Timestamp τ] in
theorem NotificationsNamed.of_same (h : NotificationsNamed w)
    (hsame : w'.notifications.notifications = w.notifications.notifications) :
    NotificationsNamed w' :=
  ⟨by rw [hsame]; exact h.nodup, by rw [hsame]; exact h.named⟩

omit [Timestamp τ] in
theorem NotificationsNamed.of_put (h : NotificationsNamed w) {id : String} {item : Notification τ}
    (hid : item.id = id)
    (hput : w'.notifications.notifications = w.notifications.notifications.put id item) :
    NotificationsNamed w' := by
  refine ⟨?_, fun id' item' hget => ?_⟩
  · rw [hput]
    exact Table.nodup_put h.nodup _ _
  · rw [hput, Table.get_put] at hget
    split at hget
    · next heq => rw [← Option.some.inj hget, heq, hid]
    · exact h.named id' item' hget

omit [Timestamp τ] in
theorem NotificationsNamed.of_erase (h : NotificationsNamed w) {id : String}
    (herase : w'.notifications.notifications = w.notifications.notifications.erase id) :
    NotificationsNamed w' := by
  refine ⟨?_, fun id' item' hget => ?_⟩
  · rw [herase]
    exact h.nodup
  · rw [herase, Table.get_erase] at hget
    split at hget
    · cases hget
    · exact h.named id' item' hget

omit [Timestamp τ] in
theorem NotificationsNamed.apply (h : NotificationsNamed w) {op : TransactionOperation τ}
    (hop : op.apply w = some w') : NotificationsNamed w' := by
  cases op <;> simp only [TransactionOperation.apply, Option.map_eq_some_iff] at hop
  case notification n =>
    obtain ⟨t, ht, rfl⟩ := hop
    exact h.of_put rfl (Table.insertAbsent_eq_some ht).2
  case jobAudit | webhookAudit | notificationAudit =>
    cases hop
    exact h.of_same rfl
  all_goals
    obtain ⟨t, -, rfl⟩ := hop
    exact h.of_same rfl

/-- **Whatever a service calls, notifications stay stored once and under their ids.** -/
theorem NotificationsNamed.exec (h : NotificationsNamed w) {op : AppOp τ} {choice : Choice}
    {res : Except JsError (op.Out τ)} (hexec : op.exec choice w = some (res, w')) :
    NotificationsNamed w' := by
  by_cases hleaves : op.leavesRecords = true
  · exact h.of_same (by rw [leavesRecords_exec hleaves hexec])
  cases op with
  | commit operations =>
    have hall : ∀ w₁, applyAll w operations = some w₁ → NotificationsNamed w₁ := fun w₁ hw₁ =>
      applyAll_rel (R := fun w w' => NotificationsNamed w → NotificationsNamed w') (fun _ h => h)
        (fun h₁ h₂ h => h₂ (h₁ h)) (fun _ _ _ _ hop h => h.apply hop) hw₁ h
    rcases stored_cases hexec with ⟨-, rfl⟩ | ⟨_, -, rfl | rfl⟩
    · split
      · exact hall _ ‹_›
      · exact h
    · split
      · exact hall _ ‹_›
      · exact h
    · exact h
  | notifications o =>
    cases o with
    | commitNotification item deliveries =>
      rcases commitNotification_cases hexec with hsame | ⟨-, hput, -⟩
      · exact h.of_same (by rw [hsame])
      · exact h.of_put rfl hput
    | updateNotification id v u =>
      rcases updateNotification_cases hexec with ⟨hsame, -⟩ | ⟨stored, hget, -, hput, -⟩
      · exact h.of_same (by rw [hsame])
      · have hid : (u.written stored).id = id := h.named id stored hget
        exact h.of_put hid (by rw [hput])
    | deleteNotification id =>
      rcases stored_cases hexec with ⟨-, rfl⟩ | ⟨_, -, rfl | rfl⟩
      · exact h.of_erase rfl
      · exact h.of_erase rfl
      · exact h
    | updateDelivery tenantId id v u =>
      rcases updateDelivery_cases hexec with ⟨hsame, -⟩ | ⟨stored, -, -, hput, -⟩
      · exact h.of_same (by rw [hsame])
      · exact h.of_same (by rw [hput])
    | deleteDelivery id =>
      rcases deleteDelivery_cases hexec with hsame | herase
      · exact h.of_same (by rw [hsame])
      · exact h.of_same (by rw [herase])
    | listDeliveries tenantId id =>
      rcases stored_cases hexec with ⟨-, rfl⟩ | ⟨_, -, rfl | rfl⟩ <;> exact h
    | getNotification | listNotifications | getDelivery => exact absurd rfl hleaves
  | authority | jobs | schedules | webhooks | apiKeys | configuration | secretMetadata | audit | host =>
    exact absurd rfl hleaves

end named

/-- What `list` sorts, before it is cut off. -/
def listing (service : NotificationService τ) (tenantId : String)
    (options : NotificationListOptions) (legacy : LegacyPrincipal) (w : World τ) :
    List (Notification τ) :=
  (w.notifications.notifications.find (service.lists tenantId options legacy)).map
    (materialized w.clock)

/-- The position `list` is asked to go on from. -/
def askedCursor (node : NotificationRuntime) (options : NotificationListOptions) :
    Except JsError (Option Cursor) :=
  match keepPresent options.cursor with
  | none => .ok none
  | some cursor => (decodeCursor node cursor).map some

omit [Timestamp τ] in
theorem NotificationsNamed.nodup_find {w : World τ} (h : NotificationsNamed w)
    (p : Notification τ → Bool) :
    ((w.notifications.notifications.find p).map Notification.id).Nodup := by
  refine Table.nodup_find_map h.nodup ?_
  intro k k' a a' ha ha' _ _ heq
  rw [← h.named k a ha, ← h.named k' a' ha', heq]

/-- **What `list` answers.** -/
theorem ensures_list {node : NotificationRuntime} {tenantId : String}
    {options : NotificationListOptions} {caller : PrincipalInput} {legacy : LegacyPrincipal}
    {w : World τ} (h : NotificationsNamed w) :
    (service.list node tenantId options caller legacy).Ensures (alone τ) w fun r _ =>
      ∀ page, r = .ok page → ∃ cursor, askedCursor node options = .ok cursor ∧
        page = pageOf node options cursor (service.listing tenantId options legacy w) := by
  unfold list
  split
  · exact fun page h => by cases h
  · refine Task.Ensures.bind (Task.ensures_ofExcept _ w) ?_ (fun e _ _ page h => by cases h)
    rintro cursor w₁ ⟨hcursor, rfl⟩
    refine Task.Ensures.bind (ensures_authorizedList w₁) ?_ (fun e _ _ page h => by cases h)
    rintro items w₂ ⟨hsame, hitems⟩
    obtain rfl := hitems items rfl
    refine Task.Ensures.bind (ensures_materializeAll (h.nodup_find _) ?_) ?_
      (fun e _ _ page h => by cases h)
    · intro item hitem
      obtain ⟨⟨id, hget⟩, -⟩ := Table.mem_find.mp hitem
      rw [hsame.notifications, h.named id item hget, hget]
    · intro shown w₃ hshown page hpage
      obtain rfl := Except.ok.inj hpage
      refine ⟨cursor, hcursor.symm, ?_⟩
      rw [hshown shown rfl, hsame.clock]
      rfl

/-! ## A page, by its places -/

/-- What the language documents of them: the text of a buffer is the text it was made of, and
`JSON.parse` reads what `JSON.stringify` wrote. -/
structure ReadsBack (node : NotificationRuntime) : Prop where
  bufferText : ∀ s, node.bufferText (utf8 s) = s
  parseJson : ∀ cursor, node.parseJson (cursorJson cursor) =
    some (.obj [("createdAt", .str cursor.createdAt), ("id", .str cursor.id)])

omit [Timestamp τ] in
theorem decodeCursor_encodeCursor {node : NotificationRuntime} (h : ReadsBack node)
    (cursor : Cursor) : decodeCursor node (encodeCursor cursor) = .ok cursor := by
  unfold decodeCursor encodeCursor
  rw [Base64url.decode_encode, h.bufferText, h.parseJson]
  rfl

omit [Timestamp τ] in
theorem encodeCursor_ne_empty (cursor : Cursor) : encodeCursor cursor ≠ "" := by
  refine Base64url.encode_ne_empty fun hnil => ?_
  have hempty : (cursorJson cursor).toByteArray.data = (default : ByteArray).data :=
    Array.toList_inj.mp hnil
  have hjson : cursorJson cursor = "" := String.toByteArray_inj.mp (ByteArray.ext hempty)
  have hchars := congrArg String.toList hjson
  simp [cursorJson] at hchars

/-- The position a later page is asked for. -/
theorem askedCursor_encode {node : NotificationRuntime} (h : ReadsBack node)
    (options : NotificationListOptions) (cursor : Option Cursor) :
    askedCursor node { options with cursor := cursor.map encodeCursor } = .ok cursor := by
  unfold askedCursor
  cases cursor with
  | none => rfl
  | some c =>
    have hkeep : keepPresent (some (encodeCursor c)) = some (encodeCursor c) := by
      simp [keepPresent, present, encodeCursor_ne_empty]
    simp only [Option.map_some, hkeep, decodeCursor_encodeCursor h]
    rfl

theorem afterCursor_iff {item : Notification τ} {cursor : Cursor} :
    afterCursor item cursor = true ↔ cursor < placeOf item := by
  rw [Cursor.lt_iff]
  simp [afterCursor, textBefore, placeOf]

/-- The times and ids of these notifications collate as their code units do. -/
def Collated (node : NotificationRuntime) (items : List (Notification τ)) : Prop :=
  ∀ a ∈ items, ∀ b ∈ items,
    node.localeCompare (Timestamp.text a.createdAt) (Timestamp.text b.createdAt) =
        cmp (⟨Timestamp.text a.createdAt⟩ : CodeUnits) ⟨Timestamp.text b.createdAt⟩ ∧
      node.localeCompare a.id b.id = cmp (⟨a.id⟩ : CodeUnits) ⟨b.id⟩

instance (node : NotificationRuntime) (items : List (Notification τ)) :
    Decidable (Collated node items) :=
  inferInstanceAs (Decidable (∀ a ∈ items, ∀ b ∈ items, _ ∧ _))

theorem listedBefore_iff {node : NotificationRuntime} {items : List (Notification τ)}
    (h : Collated node items) {a b : Notification τ} (ha : a ∈ items) (hb : b ∈ items) :
    listedBefore node a b = decide (placeOf a ≤ placeOf b) := by
  obtain ⟨htimes, hids⟩ := h b hb a ha
  rw [listedBefore, htimes, hids]
  exact Paging.then_ne_gt _ _ _ _

/-- The places of what is selected, in order. -/
def places (node : NotificationRuntime) (options : NotificationListOptions)
    (items : List (Notification τ)) : List Cursor :=
  ((items.filter (selects options)).mergeSort (listedBefore node)).map placeOf

section page

variable {node : NotificationRuntime} {options : NotificationListOptions}
  {items : List (Notification τ)} (hcollated : Collated node items)
  (hnodup : (items.map Notification.id).Nodup)

omit [Timestamp τ] in
theorem nodup_of_ids {items : List (Notification τ)} [Timestamp τ]
    (h : (items.map Notification.id).Nodup) : (items.map placeOf).Nodup := by
  refine List.Nodup.of_map Cursor.id ?_
  rw [List.map_map]
  exact h

include hcollated hnodup

/-- What is sorted descends in time. -/
theorem pairwise_places_of_sublist {kept : List (Notification τ)} (hsub : kept.Sublist items) :
    ((kept.mergeSort (listedBefore node)).map placeOf).Pairwise (· < ·) := by
  refine Paging.pairwise_mergeSort (fun a ha b hb => ?_) ?_
  · exact listedBefore_iff hcollated (hsub.subset ha) (hsub.subset hb)
  · exact (nodup_of_ids hnodup).sublist (hsub.map _)

theorem pairwise_places : (places node options items).Pairwise (· < ·) :=
  pairwise_places_of_sublist hcollated hnodup List.filter_sublist

/-- Selecting by the cursor and sorting is sorting and cutting at the cursor. -/
theorem map_sorted (cursor : Option Cursor) :
    ((items.filter fun item => selects options item &&
      cursor.all fun c => afterCursor item c).mergeSort (listedBefore node)).map placeOf =
      Paging.remaining cursor (places node options items) := by
  refine Paging.eq_of_mem_iff
    (pairwise_places_of_sublist hcollated hnodup List.filter_sublist)
    (Paging.pairwise_remaining (pairwise_places hcollated hnodup)) fun place => ?_
  have hbeyond : ∀ item : Notification τ,
      cursor.all (fun c => afterCursor item c) = true ↔ Paging.Beyond cursor (placeOf item) := by
    intro item
    cases cursor with
    | none => simp
    | some c => simp [afterCursor_iff]
  simp only [places, Paging.mem_remaining, List.mem_map, List.mem_mergeSort, List.mem_filter,
    Bool.and_eq_true, hbeyond]
  constructor
  · rintro ⟨item, ⟨hitem, hselected, hahead⟩, rfl⟩
    exact ⟨⟨item, ⟨hitem, hselected⟩, rfl⟩, hahead⟩
  · rintro ⟨⟨item, ⟨hitem, hselected⟩, rfl⟩, hahead⟩
    exact ⟨item, ⟨hitem, hselected, hahead⟩, rfl⟩

/-- **The page of `list` is a page of places**, and its cursor is where the next begins. -/
theorem pageOf_places (cursor : Option Cursor) :
    (pageOf node options cursor items).items.map placeOf =
        Paging.page (sliceLimit options.limit) cursor (places node options items) ∧
      (pageOf node options cursor items).nextCursor =
        (Paging.next (sliceLimit options.limit) cursor (places node options items)).map
          encodeCursor := by
  have hsorted := @map_sorted _ _ _ options _ hcollated hnodup cursor
  have hlength := congrArg List.length hsorted
  rw [List.length_map] at hlength
  have hitems : (pageOf node options cursor items).items.map placeOf =
      Paging.page (sliceLimit options.limit) cursor (places node options items) := by
    rw [pageOf, List.map_take, hsorted]
    rfl
  refine ⟨hitems, ?_⟩
  have hlast := congrArg List.getLast? hitems
  rw [List.getLast?_map] at hlast
  simp only [Paging.next, ← hlength, ← hlast, ← pageLimit_lt]
  show (if _ then _ else _) = _
  split
  · rw [Option.map_map]
    rfl
  · rfl

end page

/-! ## Walks -/

/-- A page that was read: the cursor it was asked for, the world it was read in, and what it
had. -/
structure PageRead (τ : Type) where
  cursor : Option String
  world : World τ
  page : NotificationPage τ

/-- The pages are read one after the other, each for the cursor of the one before, by a call
that runs by itself; whatever happens in between. The walk goes on exactly where there is a
cursor to go on from, and may still be on its way. -/
def Followed (call : Option String → Svc τ (NotificationPage τ)) :
    Option String → List (PageRead τ) → Prop
  | _, [] => True
  | cursor, read :: rest =>
    read.cursor = cursor ∧
      (∃ w', Task.Settles (alone τ) (call cursor) read.world (.ok read.page) w') ∧
      (read.page.nextCursor = none → rest = []) ∧ Followed call read.page.nextCursor rest

omit [Timestamp τ] in
/-- Where a walk began it was one. -/
theorem Followed.of_append [Timestamp τ] {call : Option String → Svc τ (NotificationPage τ)}
    {cursor : Option String} {before after : List (PageRead τ)}
    (h : Followed call cursor (before ++ after)) : Followed call cursor before := by
  induction before generalizing cursor with
  | nil => trivial
  | cons read rest ih =>
    obtain ⟨hcursor, hsettles, hend, hnext⟩ := h
    refine ⟨hcursor, hsettles, fun hnone => ?_, ih hnext⟩
    exact (List.append_eq_nil_iff.mp (hend hnone)).1

/-- The last page that was read has no cursor. -/
def Ended (reads : List (PageRead τ)) : Prop :=
  ∃ before last, reads = before ++ [last] ∧ last.page.nextCursor = none

/-- The places of what was returned, in the order it was. -/
def returned (reads : List (PageRead τ)) : List Cursor :=
  reads.flatMap fun read => read.page.items.map placeOf

/-- What a caller gets who follows the cursors. -/
structure WalksAll (matching : World τ → Cursor → Prop) (reads : List (PageRead τ)) : Prop where
  /-- Nothing is returned that does not match. -/
  only : ∀ read ∈ reads, ∀ item ∈ read.page.items, matching read.world (placeOf item)
  /-- In descending order. -/
  descending : (returned reads).Pairwise fun a b => a < b
  /-- Nothing is returned twice. -/
  once : (returned reads).Nodup
  /-- What matched throughout was returned once the walk has ended. -/
  everything : Ended reads → ∀ place, (∀ read ∈ reads, matching read.world place) →
    place ∈ returned reads
  /-- The walk ends. -/
  ends : ∀ stored : Finset Cursor,
    (∀ read ∈ reads, ∀ place, matching read.world place → place ∈ stored) →
    reads.length ≤ stored.card + 1
  /-- A page has no cursor exactly where nothing that matches comes after what was
  returned. -/
  last : ∀ before read after, reads = before ++ read :: after →
    (read.page.nextCursor = none ↔ ¬ ∃ place, matching read.world place ∧
      ∀ earlier ∈ returned (before ++ [read]), earlier < place)

/-- A notification of this place is stored, the caller may list it, and as it is shown it
passes the filter. -/
def Matches (service : NotificationService τ) (tenantId : String) (options : NotificationListOptions)
    (legacy : LegacyPrincipal) (w : World τ) (place : Cursor) : Prop :=
  ∃ item, w.notifications.notifications.get place.id = some item ∧ placeOf item = place ∧
    service.lists tenantId options legacy item = true ∧
    selects options (materialized w.clock item) = true

/-- The store a page is read from: each notification once and under its id, and times and ids
that collate. -/
structure Listable (service : NotificationService τ) (node : NotificationRuntime)
    (tenantId : String) (options : NotificationListOptions) (legacy : LegacyPrincipal)
    (w : World τ) : Prop where
  named : NotificationsNamed w
  collated : Collated node (service.listing tenantId options legacy w)

section walk

variable {node : NotificationRuntime} {tenantId : String} {options : NotificationListOptions}
  {caller : PrincipalInput} {legacy : LegacyPrincipal}

/-- The places a page is cut out of. -/
def listedPlaces (service : NotificationService τ) (node : NotificationRuntime) (tenantId : String)
    (options : NotificationListOptions) (legacy : LegacyPrincipal) (read : PageRead τ) :
    List Cursor :=
  places node options (service.listing tenantId options legacy read.world)

theorem nodup_listing {w : World τ} (h : NotificationsNamed w) :
    ((service.listing tenantId options legacy w).map Notification.id).Nodup := by
  have hids : Notification.id ∘ materialized w.clock = (Notification.id : Notification τ → String) :=
    funext fun item => materialized_id w.clock item
  rw [listing, List.map_map, hids]
  exact h.nodup_find _

theorem Listable.pairwise {read : PageRead τ}
    (h : service.Listable node tenantId options legacy read.world) :
    (listedPlaces service node tenantId options legacy read).Pairwise (· < ·) :=
  pairwise_places h.collated (nodup_listing h.named)

theorem placeOf_materialized (t : τ) (item : Notification τ) :
    placeOf (materialized t item) = placeOf item := by
  simp [placeOf]

/-- What is listed is what matches. -/
theorem Listable.mem_places {read : PageRead τ}
    (h : service.Listable node tenantId options legacy read.world) {place : Cursor} :
    place ∈ listedPlaces service node tenantId options legacy read ↔
      service.Matches tenantId options legacy read.world place := by
  simp only [listedPlaces, places, listing, List.mem_map, List.mem_mergeSort, List.mem_filter,
    Table.mem_find, Matches]
  constructor
  · rintro ⟨shown, ⟨⟨item, ⟨⟨id, hget⟩, hlists⟩, rfl⟩, hselected⟩, rfl⟩
    rw [placeOf_materialized]
    refine ⟨item, ?_, rfl, hlists, hselected⟩
    show read.world.notifications.notifications.get item.id = some item
    rw [h.named.named id item hget, hget]
  · rintro ⟨item, hget, rfl, hlists, hselected⟩
    exact ⟨_, ⟨⟨item, ⟨⟨_, hget⟩, hlists⟩, rfl⟩, hselected⟩, placeOf_materialized _ _⟩

/-- **One page.** -/
theorem read_page (hnode : ReadsBack node) {read : PageRead τ}
    (h : service.Listable node tenantId options legacy read.world) {cursor : Option Cursor}
    {w' : World τ} (hsettles : Task.Settles (alone τ) (service.list node tenantId
      { options with cursor := cursor.map encodeCursor } caller legacy) read.world
      (.ok read.page) w') :
    read.page.items.map placeOf = Paging.page (sliceLimit options.limit) cursor
        (listedPlaces service node tenantId options legacy read) ∧
      read.page.nextCursor = (Paging.next (sliceLimit options.limit) cursor
        (listedPlaces service node tenantId options legacy read)).map encodeCursor := by
  obtain ⟨cursor', hcursor, hpage⟩ := (ensures_list h.named).settles hsettles read.page rfl
  rw [askedCursor_encode hnode] at hcursor
  obtain rfl := Except.ok.inj hcursor
  rw [hpage]
  exact pageOf_places h.collated (nodup_listing h.named) cursor

variable {reads : List (PageRead τ)} (hnode : ReadsBack node)
  (hlistable : ∀ read ∈ reads, service.Listable node tenantId options legacy read.world)

include hnode hlistable

/-- **A walk is one through places.** -/
theorem follows_of_followed {cursor : Option Cursor}
    (hwalk : Followed (fun cursor => service.list node tenantId { options with cursor } caller legacy)
      (cursor.map encodeCursor) reads) :
    Paging.Follows (sliceLimit options.limit) cursor
        (reads.map (listedPlaces service node tenantId options legacy)) ∧
      returned reads = (Paging.pages (sliceLimit options.limit) cursor
        (reads.map (listedPlaces service node tenantId options legacy))).flatten := by
  induction reads generalizing cursor with
  | nil => exact ⟨trivial, rfl⟩
  | cons read rest ih =>
    obtain ⟨-, ⟨w', hsettles⟩, hend, hnext⟩ := hwalk
    obtain ⟨hpage, hcursor⟩ := read_page hnode (hlistable read List.mem_cons_self) hsettles
    rw [hcursor] at hnext hend
    obtain ⟨hfollows, hreturned⟩ := ih (fun r hr => hlistable r (List.mem_cons_of_mem _ hr)) hnext
    have hstop : Paging.next (sliceLimit options.limit) cursor
        (listedPlaces service node tenantId options legacy read) = none → rest = [] := by
      intro hnone
      rw [hnone] at hend
      exact hend rfl
    refine ⟨⟨fun hnone => by rw [hstop hnone]; rfl, hfollows⟩, ?_⟩
    rw [List.map_cons, Paging.pages, List.flatten_cons, ← hpage]
    show read.page.items.map placeOf ++ returned rest = _
    rw [hreturned]
    by_cases hnone : Paging.next (sliceLimit options.limit) cursor
        (listedPlaces service node tenantId options legacy read) = none
    · rw [hstop hnone]
      rfl
    · rw [Paging.next_eq_advance (sliceLimit_pos _) hnone]
      rw [hpage]

/-- A page on the way is one from where the walk has come to. -/
theorem page_of_followed {cursor : Option Cursor} {before after : List (PageRead τ)}
    {read : PageRead τ} (hreads : reads = before ++ read :: after)
    (hwalk : Followed (fun cursor => service.list node tenantId { options with cursor } caller legacy)
      (cursor.map encodeCursor) reads) :
    read.page.items.map placeOf = Paging.page (sliceLimit options.limit)
        (Paging.reached (sliceLimit options.limit) cursor
          (before.map (listedPlaces service node tenantId options legacy)))
        (listedPlaces service node tenantId options legacy read) ∧
      read.page.nextCursor = (Paging.next (sliceLimit options.limit)
        (Paging.reached (sliceLimit options.limit) cursor
          (before.map (listedPlaces service node tenantId options legacy)))
        (listedPlaces service node tenantId options legacy read)).map encodeCursor := by
  subst hreads
  induction before generalizing cursor with
  | nil =>
    obtain ⟨-, ⟨w', hsettles⟩, -, -⟩ := hwalk
    exact read_page hnode (hlistable read List.mem_cons_self) hsettles
  | cons first before ih =>
    obtain ⟨-, ⟨w', hsettles⟩, hend, hnext⟩ := hwalk
    obtain ⟨-, hcursor⟩ := read_page hnode (hlistable first List.mem_cons_self) hsettles
    rw [hcursor] at hnext hend
    have hgoes : Paging.next (sliceLimit options.limit) cursor
        (listedPlaces service node tenantId options legacy first) ≠ none := by
      intro hnone
      rw [hnone] at hend
      exact absurd (hend rfl) (by simp)
    rw [Paging.next_eq_advance (sliceLimit_pos _) hgoes] at hnext
    exact ih (fun r hr => hlistable r (List.mem_cons_of_mem _ hr)) hnext

omit hnode in
theorem pairwise_listedPlaces : ∀ listing ∈ reads.map
    (listedPlaces service node tenantId options legacy), listing.Pairwise (· < ·) := by
  intro listing hlisting
  obtain ⟨read, hread, rfl⟩ := List.mem_map.mp hlisting
  exact (hlistable read hread).pairwise

section first

variable (hwalk : Followed
  (fun cursor => service.list node tenantId { options with cursor } caller legacy) none reads)

include hwalk

theorem returned_eq : returned reads = (Paging.pages (sliceLimit options.limit) none
    (reads.map (listedPlaces service node tenantId options legacy))).flatten :=
  (@follows_of_followed _ _ _ _ _ _ caller _ _ hnode hlistable none hwalk).2

theorem descending_of_followed : (returned reads).Pairwise (· < ·) := by
  rw [returned_eq hnode hlistable hwalk]
  exact (Paging.pairwise_pages (pairwise_listedPlaces hlistable)).1

/-- The page after these. -/
theorem page_at {before after : List (PageRead τ)} {read : PageRead τ}
    (hreads : reads = before ++ read :: after) :
    read.page.items.map placeOf = Paging.page (sliceLimit options.limit)
        (Paging.reached (sliceLimit options.limit) none
          (before.map (listedPlaces service node tenantId options legacy)))
        (listedPlaces service node tenantId options legacy read) ∧
      read.page.nextCursor = (Paging.next (sliceLimit options.limit)
        (Paging.reached (sliceLimit options.limit) none
          (before.map (listedPlaces service node tenantId options legacy)))
        (listedPlaces service node tenantId options legacy read)).map encodeCursor :=
  @page_of_followed _ _ _ _ _ _ caller _ _ hnode hlistable none before after read hreads hwalk

theorem matches_of_returned {read : PageRead τ} (hread : read ∈ reads) {item : Notification τ}
    (hitem : item ∈ read.page.items) :
    service.Matches tenantId options legacy read.world (placeOf item) := by
  obtain ⟨before, after, hreads⟩ := List.append_of_mem hread
  have hplace : placeOf item ∈ read.page.items.map placeOf := List.mem_map_of_mem hitem
  rw [(page_at hnode hlistable hwalk hreads).1] at hplace
  exact (hlistable read hread).mem_places.mp (Paging.mem_listing_of_mem_page hplace)

theorem returned_of_matches (hended : Ended reads) {place : Cursor}
    (hthrough : ∀ read ∈ reads, service.Matches tenantId options legacy read.world place) :
    place ∈ returned reads := by
  obtain ⟨before, last, hreads, hend⟩ := hended
  have hnext := (page_at hnode hlistable hwalk hreads).2
  rw [hend, eq_comm, Option.map_eq_none_iff] at hnext
  have hsorted := pairwise_listedPlaces hlistable
  have hin : ∀ listing ∈ reads.map (listedPlaces service node tenantId options legacy),
      place ∈ listing := by
    intro listing hlisting
    obtain ⟨read, hread, rfl⟩ := List.mem_map.mp hlisting
    exact (hlistable read hread).mem_places.mpr (hthrough read hread)
  rw [returned_eq hnode hlistable hwalk]
  rw [hreads, List.map_append, List.map_cons, List.map_nil] at hsorted hin ⊢
  exact Paging.mem_pages_of_end (sliceLimit_pos _) hnext hsorted hin

theorem length_of_followed {stored : Finset Cursor} (hstored : ∀ read ∈ reads, ∀ place,
    service.Matches tenantId options legacy read.world place → place ∈ stored) :
    reads.length ≤ stored.card + 1 := by
  have hfollows := (@follows_of_followed _ _ _ _ _ _ caller _ _ hnode hlistable none hwalk).1
  have hpositions : ∀ listing ∈ reads.map (listedPlaces service node tenantId options legacy),
      ∀ place ∈ listing, place ∈ stored := by
    intro listing hlisting place hplace
    obtain ⟨read, hread, rfl⟩ := List.mem_map.mp hlisting
    exact hstored read hread place ((hlistable read hread).mem_places.mp hplace)
  simpa using hfollows.length_le_card (sliceLimit_pos _) (pairwise_listedPlaces hlistable) hpositions

theorem nextCursor_eq_none_iff {before after : List (PageRead τ)} {read : PageRead τ}
    (hreads : reads = before ++ read :: after) :
    read.page.nextCursor = none ↔
      ¬ ∃ place, service.Matches tenantId options legacy read.world place ∧
        ∀ earlier ∈ returned (before ++ [read]), earlier < place := by
  have hnext := (page_at hnode hlistable hwalk hreads).2
  rw [hreads, List.append_cons] at hwalk hlistable
  have hlistable' := fun r hr => hlistable r (List.mem_append_left after hr)
  have hread := hlistable' read (List.mem_append_right _ List.mem_cons_self)
  have hsofar := returned_eq hnode hlistable' hwalk.of_append
  rw [hnext, Option.map_eq_none_iff, Paging.next_eq_none_iff (sliceLimit_pos _) hread.pairwise]
  simp only [hsofar, ← Paging.beyond_reached_iff (pairwise_listedPlaces hlistable'), not_exists,
    not_and, ← hread.mem_places]
  rw [List.map_append, Paging.reached_append]
  exact Iff.rfl

/-- **Following the cursors yields everything that matches throughout**, in descending order
and nothing twice, whatever becomes of the store between two pages; and it ends. -/
theorem list_walks_all : WalksAll (service.Matches tenantId options legacy) reads where
  only _ hread _ hitem := matches_of_returned hnode hlistable hwalk hread hitem
  descending := descending_of_followed hnode hlistable hwalk
  once := (descending_of_followed hnode hlistable hwalk).imp fun hlt => ne_of_lt hlt
  everything hended _ hthrough := returned_of_matches hnode hlistable hwalk hended hthrough
  ends _ hstored := length_of_followed hnode hlistable hwalk hstored
  last _ _ _ hreads := nextCursor_eq_none_iff hnode hlistable hwalk hreads

end first

end walk

end filter

section sample

/-! ### A reader of cursors -/

/-- The text of `Buffer.toString('utf8')` where the bytes are one. -/
def bufferText (bytes : List UInt8) : String := (String.fromUTF8? ⟨bytes.toArray⟩).getD ""

theorem bufferText_utf8 (s : String) : bufferText (utf8 s) = s := by
  have hbytes : (⟨(utf8 s).toArray⟩ : ByteArray) = s.toByteArray := by
    simp [utf8]
  have hread : String.fromUTF8? s.toByteArray = some s := dif_pos s.isValidUTF8
  rw [bufferText, hbytes, hread]
  rfl

/-- What follows an expected text. -/
def afterText (expected chars : List Char) : Option (List Char) :=
  if expected.isPrefixOf chars then some (chars.drop expected.length) else none

theorem afterText_append (expected rest : List Char) :
    afterText expected (expected ++ rest) = some rest := by
  simp [afterText]

/-- The characters of a string that was opened, and what follows its quote. -/
def stringBody : Nat → List Char → Option (List Char × List Char)
  | 0, _ => none
  | n + 1, chars =>
    if chars.head? = some '"' then some ([], chars.tail)
    else do
      let (c, rest) ← unescapeJson chars
      let (cs, left) ← stringBody n rest
      pure (c :: cs, left)

theorem stringBody_escaped (rest : List Char) : (chars : List Char) → {n : Nat} →
    chars.length < n → stringBody n (chars.flatMap escapeJson ++ '"' :: rest) = some (chars, rest)
  | [], n + 1, _ => rfl
  | c :: chars, n + 1, hn => by
    obtain ⟨d, escaped, hescape, hopen⟩ := escapeJson_open c
    have hchars := stringBody_escaped rest chars (Nat.lt_of_succ_lt_succ hn)
    have hhead : (escapeJson c ++ (chars.flatMap escapeJson ++ '"' :: rest)).head? ≠ some '"' := by
      rw [hescape]
      simpa using hopen
    rw [List.flatMap_cons, List.append_assoc, stringBody, if_neg hhead, unescapeJson_escapeJson]
    show (stringBody n _).bind _ = _
    rw [hchars]
    rfl

theorem length_le_escaped (chars : List Char) : chars.length ≤ (chars.flatMap escapeJson).length := by
  induction chars with
  | nil => exact Nat.le_refl 0
  | cons c chars ih =>
    obtain ⟨d, escaped, hescape, -⟩ := escapeJson_open c
    rw [List.flatMap_cons, List.length_append, hescape, List.length_cons, List.length_cons]
    omega

/-- The string a text goes on with, and what follows it. -/
def stringAfter (expected chars : List Char) : Option (String × List Char) := do
  let rest ← afterText expected chars
  let (body, left) ← stringBody (rest.length + 1) rest
  pure (String.ofList body, left)

theorem stringAfter_append (expected : List Char) (s : String) (rest : List Char) :
    stringAfter expected (expected ++ (s.toList.flatMap escapeJson ++ '"' :: rest)) =
      some (s, rest) := by
  have hlength := length_le_escaped s.toList
  have hbody : stringBody ((s.toList.flatMap escapeJson ++ '"' :: rest).length + 1)
      (s.toList.flatMap escapeJson ++ '"' :: rest) = some (s.toList, rest) := by
    refine stringBody_escaped rest s.toList ?_
    rw [List.length_append]
    omega
  rw [stringAfter, afterText_append]
  show (stringBody _ _).bind _ = _
  rw [hbody]
  show some (String.ofList s.toList, rest) = _
  rw [String.ofList_toList]

/-- `JSON.parse` of the texts of cursors. -/
def parseCursor (text : String) : Option JsValue := do
  let (createdAt, rest) ← stringAfter "\x7b\"createdAt\":\"".toList text.toList
  let (id, _) ← stringAfter ",\"id\":\"".toList rest
  pure (.obj [("createdAt", .str createdAt), ("id", .str id)])

theorem parseCursor_json (cursor : Cursor) : parseCursor (cursorJson cursor) =
    some (.obj [("createdAt", .str cursor.createdAt), ("id", .str cursor.id)]) := by
  have hchars : (cursorJson cursor).toList = "\x7b\"createdAt\":\"".toList ++
      (cursor.createdAt.toList.flatMap escapeJson ++ '"' :: (",\"id\":\"".toList ++
        (cursor.id.toList.flatMap escapeJson ++ '"' :: "\x7d".toList))) := by
    have hcreatedAt : (quoteJson "createdAt").toList = "\"createdAt\"".toList := by decide
    have hid : (quoteJson "id").toList = "\"id\"".toList := by decide
    simp only [cursorJson, String.toList_append, hcreatedAt, hid, toList_quoteJson]
    simp
  rw [parseCursor, hchars, stringAfter_append]
  show (stringAfter _ _).bind _ = _
  rw [stringAfter_append]
  rfl

/-- A collation by code units. -/
def listingNode : NotificationRuntime where
  localeCompare a b := cmp (⟨a⟩ : CodeUnits) ⟨b⟩
  bufferText
  parseJson := parseCursor

theorem listingNode_readsBack : ReadsBack listingNode where
  bufferText := bufferText_utf8
  parseJson := parseCursor_json

/-! ### A walk -/

/-- Where the notifications are listed and materialized, `list` settles with their page. -/
theorem settles_list [Timestamp τ] {service : NotificationService τ} {node : NotificationRuntime}
    (hnode : ReadsBack node) {tenantId : String} {options : NotificationListOptions}
    {caller : PrincipalInput} {legacy : LegacyPrincipal} {cursor : Option Cursor} {w w' : World τ}
    {shown : List (Notification τ)} {page : NotificationPage τ} (hstatus : options.status = none)
    (hshown : Task.Settles (alone τ)
      ((service.authorizedList tenantId options caller legacy).bind materializeAll) w (.ok shown) w')
    (hpage : pageOf node options cursor shown = page) :
    Task.Settles (alone τ) (service.list node tenantId
      { options with cursor := cursor.map encodeCursor } caller legacy) w (.ok page) w' := by
  have hlist : service.list node tenantId { options with cursor := cursor.map encodeCursor }
      caller legacy = ((service.authorizedList tenantId options caller legacy).bind
        materializeAll).bind fun shown => pure (pageOf node options cursor shown) := by
    unfold list
    rw [if_neg (by simp [hstatus, keepPresent, present])]
    show (check (askedCursor node _)).bind _ = _
    rw [askedCursor_encode hnode, Task.bind_assoc]
    rfl
  rw [hlist, ← hpage]
  exact hshown.bind ⟨rfl, rfl⟩

def listedNotification (id : String) (createdAt : Nat) (expiresAt : Option Nat) :
    Notification Nat where
  id
  tenantId := "acme"
  recipient := "ada"
  type := "order.shipped"
  title := "Shipped"
  priority := .normal
  channels := ["in-app"]
  status := .pending
  createdAt
  expiresAt

def storing (clock : Nat) (items : List (Notification Nat)) : World Nat where
  clock
  notifications := { notifications := items.foldl (fun table item => table.put item.id item) .empty }

def first : Notification Nat := listedNotification "n1" 1 none

/-- It expires before the second page. -/
def second : Notification Nat := listedNotification "n2" 2 (some 4)

def third : Notification Nat := listedNotification "n3" 3 none

def fourth : Notification Nat := listedNotification "n4" 4 none

def listingService : NotificationService Nat where
  stableUuid _ := ""

def reader : LegacyPrincipal where
  principalId := "ada"
  tenantId := "acme"
  scopes := ["notifications.read"]

def oneAndAHalf : NotificationListOptions where
  limit := some (.finite (3 / 2))

/-- One notification a page. The third is deleted after the first page, when a fourth is there
and the second has expired. -/
def listingReads : List (PageRead Nat) :=
  [{ cursor := none, world := storing 3 [third, second, first]
     page := { items := [third], nextCursor := some (encodeCursor (placeOf third)) } },
   { cursor := some (encodeCursor (placeOf third)), world := storing 5 [fourth, second, first]
     page := {
       items := [materialized 5 second], nextCursor := some (encodeCursor (placeOf second)) } },
   { cursor := some (encodeCursor (placeOf second))
     world := storing 6 [fourth, materialized 5 second, first]
     page := { items := [first] } }]

/-- The listing of these choices, as it is materialized. -/
theorem settles_shown {choices : List Choice} {w : World Nat} {shown : List (Notification Nat)}
    (h : (Task.after (S := services Nat) AppOp.exec choices
      ((listingService.authorizedList "acme" oneAndAHalf .missing reader).bind materializeAll)
      w).bind resolvedTo = some shown) :
    ∃ w', Task.Settles (alone Nat)
      ((listingService.authorizedList "acme" oneAndAHalf .missing reader).bind materializeAll) w
      (.ok shown) w' :=
  settles_of_after h

/-- The page of what is left, in order, once the cursor has cut. -/
theorem pageOf_cut {cursor : Option Cursor} {passed left : List (Notification Nat)}
    (hpassed : ∀ item ∈ passed,
      (selects oneAndAHalf item && cursor.all fun c => afterCursor item c) = false)
    (hleft : ∀ item ∈ left,
      (selects oneAndAHalf item && cursor.all fun c => afterCursor item c) = true)
    (hsorted : left.Pairwise fun a b => listedBefore listingNode a b = true) :
    pageOf listingNode oneAndAHalf cursor (passed ++ left) =
      { items := left.take 1
        nextCursor := if 1 < left.length then
          (left.take 1).getLast?.map fun item => encodeCursor (placeOf item) else none } := by
  have hfilter : ((passed ++ left).filter fun item =>
      selects oneAndAHalf item && cursor.all fun c => afterCursor item c) = left := by
    rw [List.filter_append, List.filter_eq_self.mpr hleft,
      List.filter_eq_nil_iff.mpr fun item hitem => by simp [hpassed item hitem]]
    rfl
  have hlimit : sliceLimit oneAndAHalf.limit = 1 := by decide +kernel
  simp only [pageOf, hfilter, List.mergeSort_of_pairwise hsorted, pageLimit_lt, hlimit]

/-- The first page is asked for without a cursor. -/
theorem settles_first : ∃ w', Task.Settles (alone Nat) (listingService.list listingNode "acme"
    { oneAndAHalf with cursor := none } .missing reader) (storing 3 [third, second, first])
    (.ok { items := [third], nextCursor := some (encodeCursor (placeOf third)) }) w' := by
  obtain ⟨w', hshown⟩ := @settles_shown [.proceed, .proceed, .proceed]
    (storing 3 [third, second, first]) [third, second, first] rfl
  have hpage := @pageOf_cut none [] [third, second, first] (fun _ h => absurd h List.not_mem_nil)
    (by decide +kernel) (by decide +kernel)
  exact ⟨w', @settles_list _ _ _ _ listingNode_readsBack _ _ _ _ none _ _ _ _ rfl hshown hpage⟩

theorem settles_second : ∃ w', Task.Settles (alone Nat) (listingService.list listingNode "acme"
    { oneAndAHalf with cursor := some (encodeCursor (placeOf third)) } .missing reader)
    (storing 5 [fourth, second, first])
    (.ok { items := [materialized 5 second], nextCursor := some (encodeCursor (placeOf second)) })
    w' := by
  obtain ⟨w', hshown⟩ := @settles_shown [.proceed, .proceed, .proceed, .proceed, .proceed,
    .proceed, .draw "e1", .proceed, .proceed, .proceed, .proceed]
    (storing 5 [fourth, second, first]) [fourth, materialized 5 second, first] rfl
  have hpage := @pageOf_cut (some (placeOf third)) [fourth] [materialized 5 second, first]
    (by decide +kernel) (by decide +kernel) (by decide +kernel)
  exact ⟨w', @settles_list _ _ _ _ listingNode_readsBack _ _ _ _ (some (placeOf third)) _ _ _ _ rfl
    hshown hpage⟩

theorem settles_third : ∃ w', Task.Settles (alone Nat) (listingService.list listingNode "acme"
    { oneAndAHalf with cursor := some (encodeCursor (placeOf second)) } .missing reader)
    (storing 6 [fourth, materialized 5 second, first]) (.ok { items := [first] }) w' := by
  obtain ⟨w', hshown⟩ := @settles_shown [.proceed, .proceed, .proceed]
    (storing 6 [fourth, materialized 5 second, first]) [fourth, materialized 5 second, first] rfl
  have hpage := @pageOf_cut (some (placeOf second)) [fourth, materialized 5 second] [first]
    (by decide +kernel) (by decide +kernel) (by decide +kernel)
  exact ⟨w', @settles_list _ _ _ _ listingNode_readsBack _ _ _ _ (some (placeOf second)) _ _ _ _ rfl
    hshown hpage⟩

theorem listingReads_followed :
    Followed (fun cursor => listingService.list listingNode "acme" { oneAndAHalf with cursor }
      .missing reader) none listingReads :=
  ⟨rfl, settles_first, fun h => absurd h (Option.some_ne_none _),
    rfl, settles_second, fun h => absurd h (Option.some_ne_none _),
    rfl, settles_third, fun _ => rfl, trivial⟩

theorem storing_named (clock : Nat) (items : List (Notification Nat)) :
    NotificationsNamed (storing clock items) := by
  have hput : ∀ (items : List (Notification Nat)) (table : Table String (Notification Nat)),
      table.keys.Nodup → (∀ id item, table.get id = some item → item.id = id) →
      (items.foldl (fun table item => table.put item.id item) table).keys.Nodup ∧
        ∀ id item, (items.foldl (fun table item => table.put item.id item) table).get id =
          some item → item.id = id := by
    intro items
    induction items with
    | nil => exact fun _ hnodup hnamed => ⟨hnodup, hnamed⟩
    | cons first rest ih =>
      intro table hnodup hnamed
      refine ih _ (Table.nodup_put hnodup _ _) fun id item hget => ?_
      rw [Table.get_put] at hget
      split at hget
      · next hid => rw [← Option.some.inj hget, hid]
      · exact hnamed id item hget
  obtain ⟨hnodup, hnamed⟩ := hput items .empty List.nodup_nil fun _ _ h => by cases h
  exact ⟨hnodup, hnamed⟩

theorem listingReads_listable : ∀ read ∈ listingReads,
    listingService.Listable listingNode "acme" oneAndAHalf reader read.world := by
  intro read hread
  refine ⟨?_, fun _ _ _ _ => ⟨rfl, rfl⟩⟩
  simp only [listingReads, List.mem_cons, List.not_mem_nil, or_false] at hread
  rcases hread with rfl | rfl | rfl
  · exact storing_named 3 _
  · exact storing_named 5 _
  · exact storing_named 6 _

/-- The first and the second are returned by a walk over which the third is deleted. -/
theorem list_walks_all_sample :
    WalksAll (listingService.Matches "acme" oneAndAHalf reader) listingReads :=
  list_walks_all listingNode_readsBack listingReads_listable listingReads_followed

end sample

end NotificationService

end AppPort
