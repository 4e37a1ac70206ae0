import AppPort.ApiKeys.Records

/-!
# A key breeds no authority

A key may be used to create, update and rotate keys. What it cannot do is widen anything
by it: in every run in which keys are only written on behalf of one key and of keys that
were born in the run, all of these stay within the restrictions and the lifetime that the
one key had at the start. This holds of its own record too, which it may update itself.
-/

namespace AppPort

open Effects Effects.Platform

variable {τ : Type} [Timestamp τ]

/-! ## The ceiling -/

/-- A key permits and lasts no more than another. -/
structure ApiKey.Within (key root : ApiKey τ) : Prop where
  restrictions : restrictionsWithin key.restrictions root.restrictions = true
  expiry : ∀ limit, root.expiresAt = some limit → ∃ e, key.expiresAt = some e ∧ e ≤ limit

theorem ApiKey.Within.refl (key : ApiKey τ) : key.Within key :=
  ⟨restrictionsWithin_refl _, fun limit h => ⟨limit, h, le_refl limit⟩⟩

theorem ApiKey.Within.trans {a b c : ApiKey τ} (hab : a.Within b) (hbc : b.Within c) :
    a.Within c := by
  refine ⟨restrictionsWithin_trans hab.restrictions hbc.restrictions, fun limit hlimit => ?_⟩
  obtain ⟨e, he, hle⟩ := hbc.expiry limit hlimit
  obtain ⟨e', he', hle'⟩ := hab.expiry e he
  exact ⟨e', he', hle'.trans hle⟩

/-- What a request that passed the ceiling check asks for. -/
theorem ApiKey.Within.of_withinCaller {callerKey key : ApiKey τ}
    (h : ApiKeyService.withinCaller callerKey key.restrictions key.expiresAt = .ok ()) :
    key.Within callerKey := by
  unfold ApiKeyService.withinCaller at h
  split at h
  · cases h
  next hwithin =>
  refine ⟨by simpa using hwithin, fun limit hlimit => ?_⟩
  rw [hlimit] at h
  cases hexpiry : key.expiresAt with
  | none =>
    rw [hexpiry] at h
    cases h
  | some e =>
    rw [hexpiry] at h
    by_cases hlt : limit < e
    · simp [hlt] at h
    · exact ⟨e, rfl, not_lt.mp hlt⟩

/-- The key that the calls start from, and keys that were not there. -/
def Born (w₀ : World τ) (rootId id : String) : Prop :=
  id = rootId ∨ w₀.apiKeys.keys.get id = none

/-- The call is made on behalf of the one key or one that was born since. -/
def OnBehalf (w₀ : World τ) (rootId : String) (call : ApiKeyCall τ) : Prop :=
  ∃ id, IsCallerKey call id ∧ Born w₀ rootId id

omit [Timestamp τ] in
theorem IsCallerKey.unique {call : ApiKeyCall τ} {id id' : String} (h : IsCallerKey call id)
    (h' : IsCallerKey call id') : id = id' := by
  obtain ⟨p, hasScopes, hp, -, hid⟩ := h
  obtain ⟨q, hasScopes', hq, -, hid'⟩ := h'
  rw [hp] at hq
  cases hq
  rw [hid] at hid'
  exact Option.some.inj hid'

/-! ## One step -/

/-- All born keys are within the root. -/
structure BornWithin (w₀ : World τ) (rootId : String) (root : ApiKey τ) (w : World τ) : Prop where
  later : KeysLater w₀ w
  within : ∀ {id key}, w.apiKeys.keys.get id = some key → Born w₀ rootId id → key.Within root

/-- A phase that knows the caller's key within the root, and that issued a born key. -/
structure KeyPhase.Bred (w₀ : World τ) (rootId : String) (root : ApiKey τ) (ph : KeyPhase τ) :
    Prop where
  ceiling : ∀ key, ph.ceiling = some key → key.Within root
  issued : ∀ key, ph = .issued key → Born w₀ rootId key.id
  rotated : ∀ current key, ph = .rotated current key → Born w₀ rootId key.id

section step

variable {w₀ : World τ} {rootId : String} {root : ApiKey τ}

/-- What the caller's ceiling covers is within the root. -/
theorem Covers.within {call : ApiKeyCall τ} {ceiling : Option (ApiKey τ)} {key : ApiKey τ}
    (h : Covers call ceiling key.restrictions key.expiresAt) (hcall : OnBehalf w₀ rootId call)
    (hceiling : ∀ callerKey, ceiling = some callerKey → callerKey.Within root) :
    key.Within root := by
  obtain ⟨id, hid, -⟩ := hcall
  obtain ⟨callerKey, hkey, hwithin⟩ := h id hid
  exact (ApiKey.Within.of_withinCaller hwithin).trans (hceiling callerKey hkey)

/-- A retired key lasts no longer than before. -/
theorem Rotation.retired_within {call : ApiKeyCall τ} {t : τ} {ceiling : Option (ApiKey τ)}
    {current retired replacement : ApiKey τ}
    (h : Rotation call t ceiling current retired replacement) : retired.Within current := by
  obtain ⟨overlapSeconds, overlapEnd, rotatedBy, -, -, rfl⟩ := h.retirement
  unfold ApiKeyService.retire
  dsimp only
  split
  · exact ⟨restrictionsWithin_refl _, fun limit hlimit => ⟨limit, hlimit, le_refl limit⟩⟩
  · refine ⟨restrictionsWithin_refl _, fun limit hlimit => ⟨_, rfl, ?_⟩⟩
    simp only [ApiKeyService.validUntil, hlimit]
    split
    · exact le_refl limit
    · next hlt => exact not_lt.mp hlt

/-- A key written on behalf of a born key is within the root if it was before. -/
theorem KeyWrite.within {call : ApiKeyCall τ} {ceiling : Option (ApiKey τ)}
    {current next : ApiKey τ} (h : KeyWrite call ceiling current next)
    (hcall : HasCaller call → OnBehalf w₀ rootId call)
    (hceiling : ∀ callerKey, ceiling = some callerKey → callerKey.Within root)
    (hcurrent : current.Within root) : next.Within root := by
  cases h with
  | used t => exact ⟨hcurrent.restrictions, hcurrent.expiry⟩
  | revoked t revokedBy => exact ⟨hcurrent.restrictions, hcurrent.expiry⟩
  | updated changes t updatedBy hcaller hcovered _ =>
    by_cases htouches : changes.touchesCeiling = true
    · exact (hcovered htouches).within (hcall hcaller) hceiling
    · have hsame : changes.restrictions = none ∧ changes.expiresAt = none := by
        simpa [ApiKeyChanges.touchesCeiling] using htouches
      constructor
      · simpa [ApiKeyChanges.applied, hsame.1] using hcurrent.restrictions
      · simpa [ApiKeyChanges.applied, hsame.2] using hcurrent.expiry

/-- **A change keeps all born keys within the root.** -/
theorem KeyChange.within {call : ApiKeyCall τ} {ceiling : Option (ApiKey τ)}
    {db db' : ApiKeyTables τ} (h : KeyChange call ceiling db db')
    (hcall : HasCaller call → OnBehalf w₀ rootId call)
    (hceiling : ∀ callerKey, ceiling = some callerKey → callerKey.Within root)
    (hdb : ∀ {id key}, db.keys.get id = some key → Born w₀ rootId id → key.Within root)
    {id : String} {key : ApiKey τ} (hget : db'.keys.get id = some key) (hborn : Born w₀ rootId id) :
    key.Within root := by
  have hissued : ∀ {t : Table String (ApiKey τ)} {new : ApiKey τ}, new.Within root →
      (∀ {id key}, t.get id = some key → Born w₀ rootId id → key.Within root) →
      (t.put new.id new).get id = some key → key.Within root := by
    intro t new hnew ht hput
    rw [Table.get_put] at hput
    by_cases hid : id = new.id
    · rw [if_pos hid] at hput
      obtain rfl := Option.some.inj hput
      exact hnew
    · rw [if_neg hid] at hput
      exact ht hput hborn
  have hreplaced : ∀ {current next : ApiKey τ}, db.keys.get current.id = some current →
      (current.Within root → next.Within root) → ∀ {id key},
      (db.replaced current next).keys.get id = some key → Born w₀ rootId id → key.Within root := by
    intro current next hcurrent hnext id key hput hborn
    rw [ApiKeyTables.get_replaced] at hput
    by_cases hid : id = current.id
    · rw [if_pos hid] at hput
      obtain rfl := Option.some.inj hput
      have hwithin := hnext (hdb hcurrent (hid ▸ hborn))
      exact ⟨hwithin.restrictions, hwithin.expiry⟩
    · rw [if_neg hid] at hput
      exact hdb hput hborn
  cases h with
  | unchanged => exact hdb hget hborn
  | created hkey _ _ =>
    exact hissued (hkey.covered.within (hcall hkey.caller) hceiling) hdb hget
  | written hcurrent _ hwrite =>
    exact hreplaced hcurrent (hwrite.within hcall hceiling) hget hborn
  | @rotated t current retired replacement hcurrent hkeys _ _ _ =>
    have hcovered : Covers call ceiling replacement.restrictions replacement.expiresAt := by
      rw [hkeys.restrictions, hkeys.expiresAt]
      exact hkeys.covered
    exact hissued (hcovered.within (hcall hkeys.caller) hceiling)
      (hreplaced hcurrent hkeys.retired_within.trans) hget

theorem BornWithin.step {ph : KeyPhase τ} {step : (apiKeyPlatform τ).Step}
    (h : BornWithin w₀ rootId root step.before) (hph : ph.Bred w₀ rootId root)
    (hcall : HasCaller step.call → OnBehalf w₀ rootId step.call) (heffect : KeyEffect ph step) :
    BornWithin w₀ rootId root step.after := by
  refine ⟨h.later.trans heffect.later, ?_⟩
  cases heffect with
  | leaves hleaves =>
    rw [hleaves.apiKeys]
    exact h.within
  | remembers _ hafter =>
    rw [hafter]
    exact h.within
  | binds _ _ hafter =>
    rw [hafter]
    exact h.within
  | changes hchange hafter =>
    rw [hafter]
    exact hchange.within hcall hph.ceiling h.within

/-- A key that is not there was not there at the start. -/
theorem BornWithin.born {w : World τ} (h : BornWithin w₀ rootId root w) {id : String}
    (habsent : w.apiKeys.keys.get id = none) : Born w₀ rootId id := by
  cases hget : w₀.apiKeys.keys.get id with
  | none => exact .inr hget
  | some key =>
    obtain ⟨key', hget'⟩ := h.later.stored hget
    rw [habsent] at hget'
    cases hget'

/-- The phase knows no ceiling, and has issued nothing. -/
theorem KeyPhase.Bred.silent {ph : KeyPhase τ} (hceiling : ph.ceiling = none)
    (hissued : ∀ key, ph ≠ .issued key) (hrotated : ∀ current key, ph ≠ .rotated current key) :
    ph.Bred w₀ rootId root where
  ceiling key hkey := by
    rw [hceiling] at hkey
    cases hkey
  issued key hph := absurd hph (hissued key)
  rotated current key hph := absurd hph (hrotated current key)

/-- The phase knows a ceiling, and has issued nothing. -/
theorem KeyPhase.Bred.known {ph : KeyPhase τ}
    (hceiling : ∀ key, ph.ceiling = some key → key.Within root)
    (hissued : ∀ key, ph ≠ .issued key) (hrotated : ∀ current key, ph ≠ .rotated current key) :
    ph.Bred w₀ rootId root :=
  ⟨hceiling, fun key hph => absurd hph (hissued key),
    fun current key hph => absurd hph (hrotated current key)⟩

theorem KeyStep.bred {ph ph' : KeyPhase τ} {step : (apiKeyPlatform τ).Step} {choice : Choice}
    (hstep : KeyStep ph step ph') (h : BornWithin w₀ rootId root step.before)
    (hph : ph.Bred w₀ rootId root) (hcall : HasCaller step.call → OnBehalf w₀ rootId step.call)
    (hexec : AppOp.exec step.op choice step.before = some (step.res, step.after)) :
    ph'.Bred w₀ rootId root := by
  -- the caller's key was stored under its id, which is a born one
  have hcaller : ∀ {call : ApiKeyCall τ} {id : String} {key : ApiKey τ} {before after : World τ},
      IsCallerKey call id → (HasCaller call → OnBehalf w₀ rootId call) →
      BornWithin w₀ rootId root before →
      AppOp.exec (.apiKeys (.getKey id)) choice before = some (.ok (some key), after) →
      key.Within root := by
    intro call id key before after hid hcall hbefore hget
    have hhas : HasCaller call := by
      obtain ⟨p, hasScopes, hp, -⟩ := hid
      exact ⟨p, hasScopes, hp⟩
    obtain ⟨id', hid', hborn⟩ := hcall hhas
    rw [hid'.unique hid] at hborn
    exact hbefore.within (exec_getKey hget).1 hborn
  cases hstep with
  | plain => exact hph
  | remember => exact hph
  | stray => exact hph
  | lose => exact .silent rfl (fun _ h => by cases h) fun _ _ h => by cases h
  | @prefixKnown _ call object keyPrefix res before after =>
    match res with
    | .error e => exact .silent rfl (fun _ h => by cases h) fun _ _ h => by cases h
    | .ok none => exact .silent rfl (fun _ h => by cases h) fun _ _ h => by cases h
    | .ok (some id) => exact .silent rfl (fun _ h => by cases h) fun _ _ h => by cases h
  | @get _ call id res before after =>
    match res with
    | .error e => exact .silent rfl (fun _ h => by cases h) fun _ _ h => by cases h
    | .ok none => exact .silent rfl (fun _ h => by cases h) fun _ _ h => by cases h
    | .ok (some key) => exact .silent rfl (fun _ h => by cases h) fun _ _ h => by cases h
  | time => exact .known hph.ceiling (fun _ h => by cases h) fun _ _ h => by cases h
  | getAgain => exact .known hph.ceiling (fun _ h => by cases h) fun _ _ h => by cases h
  | write => exact .silent rfl (fun _ h => by cases h) fun _ _ h => by cases h
  | caller hid =>
    refine .known (fun key hkey => ?_) (fun _ h => by cases h) fun _ _ h => by cases h
    obtain rfl := Option.some.inj hkey
    exact hcaller hid hcall h hexec
  | callerOf hid =>
    refine .known (fun key hkey => ?_) (fun _ h => by cases h) fun _ _ h => by cases h
    obtain rfl := Option.some.inj hkey
    exact hcaller hid hcall h hexec
  | @create call ceiling key res before after hkey =>
    match res with
    | .error e => exact hph
    | .ok () =>
      obtain ⟨habsent, -, -⟩ := issued_eq_some (exec_create hexec)
      refine ⟨(fun key hkey => by cases hkey), fun key' heq => ?_, fun _ _ h => by cases h⟩
      cases heq
      exact h.born habsent
  | @rotate call current retired replacement t ceiling res before after hkeys =>
    match res with
    | .error e => exact .silent rfl (fun _ h => by cases h) fun _ _ h => by cases h
    | .ok () =>
      obtain ⟨-, -, -, -, habsent, -⟩ := rotateOperations_eq_some (exec_rotate hexec)
      refine ⟨(fun key hkey => by cases hkey), (fun _ h => by cases h), fun current' key' heq => ?_⟩
      cases heq
      exact h.born habsent
  | mint => exact .silent rfl (fun _ h => by cases h) fun _ _ h => by cases h
  | bind => exact .silent rfl (fun _ h => by cases h) fun _ _ h => by cases h

end step

/-! ## Over a whole run -/

/-- Keys are written on behalf of the one key and of born ones only. -/
def BredBy (w₀ : World τ) (rootId : String) :
    (apiKeyPlatform τ).History → (apiKeyPlatform τ).Event → Prop
  | _, .ran _ step => HasCaller step.call → OnBehalf w₀ rootId step.call
  | _, .stopped _ _ => True

theorem bred_local (w₀ : World τ) (rootId : String) (root : ApiKey τ) :
    (keyProtocol τ).LocalOver (BredBy w₀ rootId) KeyBase (fun w _ => BornWithin w₀ rootId root w)
      (fun _ _ _ ph => ph.Bred w₀ rootId root) where
  spawn _ _ _ := .silent rfl (fun _ h => by cases h) fun _ _ h => by cases h
  good h := by
    obtain ⟨choice, hexec⟩ := h.exec
    exact h.good.step h.own h.cond (h.next.change (h.base.2 _ _ h.here) hexec)
  own h := by
    obtain ⟨choice, hexec⟩ := h.exec
    exact h.next.bred h.good h.own h.cond hexec
  other h _ hq := h.sound _ _ hq
  stopGood h _ := h
  stopOther _ h := h
  envGood _ h henv := by
    have hleaves := apiKeyEnv_leavesKeys henv
    refine ⟨h.later.trans hleaves.later, ?_⟩
    rw [hleaves.apiKeys]
    exact h.within
  envSound _ _ h _ := h

/-- The call has returned a new secret, of this key. -/
def ReturnedSecret (c : (apiKeyPlatform τ).Config) (id : String) : Prop :=
  (∃ pid call answer, c.proc pid = some ⟨call, .settled (.ok (.created answer))⟩ ∧ answer.id = id) ∨
    ∃ pid call answer,
      c.proc pid = some ⟨call, .settled (.ok (.rotated (some answer)))⟩ ∧ answer.id = id

section sample

def rootKey : ApiKey Nat :=
  { storedKey with
    restrictions := some { capabilities := ["apikeys.rotate", "jobs.create"] }
    expiresAt := some 100 }

/-- The key authenticates, and its principal has it replaced. -/
def selfRotation : List (apiKeyPlatform Nat).Action :=
  authenticatedRun ++ [.spawn ⟨keyService, .rotateApiKey { id := .str "k1" } (.of keyPrincipal)⟩] ++
    keyAnswers 1 (keyPermitted "k1" 1 "apikeys.rotate" "row" ++
      [.proceed, .proceed, .proceed, .bytes [1, 2, 3], .bytes (List.replicate 32 7), .draw "k2",
        .bytes (List.replicate 16 9), .proceed, .proceed, .proceed, .proceed, .draw "e1", .proceed,
        .draw "e2", .proceed, .draw "e3", .proceed, .proceed, .proceed, .proceed, .proceed])

/-- The second call returned a secret of this key. -/
def returnedSecretOf (id : String) (c : (apiKeyPlatform Nat).Config) : Bool :=
  match c.proc 1 with
  | some ⟨_, .settled (.ok (.rotated (some answer)))⟩ => answer.id == id
  | _ => false

end sample

end AppPort
