import AppPort.ApiKeys.Protocol

/-!
# What a process knows of the keys

The base invariant of the key store. Keys are stored under their ids, the hints of a
service lead to stored keys, and a principal is bound to the key it was minted for. A
process holds copies of keys: the stored ones may have moved on since, but under the
version of a copy stands the copy. `KeyStep.change` is what this is for: whatever a step
does to the key store is one of four changes, each of the record its process held.
-/

namespace AppPort

open Effects Effects.Platform

variable {τ : Type} [Timestamp τ]

/-! ## What calls leave alone -/

/-- The brand as it was, or with one object more. -/
inductive BrandGrows (w w' : World τ) : Prop where
  | same (hverified : w'.verified = w.verified) (href : w.nextRef ≤ w'.nextRef)
  | minted (claims : PrincipalClaims) (verifiedBy : PrincipalVerification)
    (hverified : w'.verified = mintedPrincipal claims verifiedBy w.nextRef :: w.verified)
    (href : w'.nextRef = w.nextRef + 1)

/-- Keys, bindings and hints are as they were; a principal may have been minted. -/
structure LeavesKeys (w w' : World τ) : Prop where
  apiKeys : w'.apiKeys = w.apiKeys
  bound : w'.bound = w.bound
  prefixes : ∀ object, (w'.keyMemory object).knownPrefixes = (w.keyMemory object).knownPrefixes
  brand : BrandGrows w w'

omit [Timestamp τ] in
theorem LeavesKeys.refl (w : World τ) : LeavesKeys w w :=
  ⟨rfl, rfl, fun _ => rfl, .same rfl (Nat.le_refl _)⟩

omit [Timestamp τ] in
/-- Only remembering a prefix changes the prefixes a service knows. -/
theorem ApiKeyMemoryOp.exec_knownPrefixes {memory : ApiKeyMemory τ} {op : ApiKeyMemoryOp τ}
    (hop : ∀ keyPrefix id, op ≠ .rememberPrefix keyPrefix id) :
    (op.exec memory).2.knownPrefixes = memory.knownPrefixes := by
  obtain ⟨knownPrefixes, locallyCreatedKeys⟩ := memory
  cases op with
  | rememberPrefix keyPrefix id => exact absurd rfl (hop keyPrefix id)
  | knownId | localKey | forgetLocal | rememberCreated => rfl
  | rememberLocal apiKey =>
    unfold ApiKeyMemoryOp.exec
    dsimp only
    split <;> rfl

theorem AuthorityOp.exec_leavesKeys {op : AuthorityOp τ} {choice : Choice} {w w' : World τ}
    {res : Except JsError (op.Out τ)} (hop : (AppOp.authority op).leavesKeys = true)
    (h : op.exec choice w = some (res, w')) : LeavesKeys w w' := by
  have hstored : ∀ {β : Type} {r : Except JsError β × World τ} {res : Except JsError β},
      LeavesKeys w r.2 → stored choice w r = some (res, w') → LeavesKeys w w' := by
    intro β r res hr hs
    rcases stored_cases hs with ⟨-, rfl⟩ | ⟨_, -, rfl | rfl⟩
    · exact hr
    · exact hr
    · exact LeavesKeys.refl _
  have hsame : LeavesKeys w w := LeavesKeys.refl w
  cases op with
  | mint claims verifiedBy =>
    rw [(computed_ok h).2]
    exact ⟨rfl, rfl, fun _ => rfl, .minted claims verifiedBy rfl rfl⟩
  | issue context =>
    rw [(computed_ok h).2]
    exact ⟨rfl, rfl, fun _ => rfl, .same rfl (Nat.le_succ _)⟩
  | now | isVerified | hasBinding | isIssued | consume | pushRef | resolvedRefs =>
    rw [(computed_ok h).2]
    exact ⟨rfl, rfl, fun _ => rfl, .same rfl (Nat.le_refl _)⟩
  | bindCredential => cases hop
  | keyMemory object op =>
    rw [(computed_ok h).2]
    refine ⟨rfl, rfl, fun object' => ?_, .same rfl (Nat.le_refl _)⟩
    show (if object' = object then (op.exec (w.keyMemory object)).2
      else w.keyMemory object').knownPrefixes = _
    split
    · next heq =>
      rw [heq]
      refine ApiKeyMemoryOp.exec_knownPrefixes ?_
      rintro keyPrefix id rfl
      cases hop
    · rfl
  | uuid =>
    rw [(AuthorityOp.exec_uuid h).1]
    exact hsame
  | randomBytes =>
    rw [AuthorityOp.exec_randomBytes h]
    exact hsame
  | authorize =>
    simp only [AuthorityOp.exec] at h
    split at h
    · cases h
      exact hsame
    · cases h
  | checkCredential p capability resource =>
    simp only [AuthorityOp.exec] at h
    split at h
    · exact hstored hsame h
    · rw [(computed_ok h).2]
      exact hsame
  | recordEvidence row =>
    simp only [AuthorityOp.exec] at h
    split at h
    · refine hstored ?_ h
      split <;> exact ⟨rfl, rfl, fun _ => rfl, .same rfl (Nat.le_refl _)⟩
    · obtain ⟨r, hr, heq⟩ := Option.map_eq_some_iff.mp h
      cases heq
      rw [(computed_ok hr).2]
      exact hsame
  | getEvidence | findByDecision | putEvidence | listKeyAudit =>
    exact hstored ⟨rfl, rfl, fun _ => rfl, .same rfl (Nat.le_refl _)⟩ h

/-- Quiet calls leave the keys alone. -/
theorem exec_leavesKeys {op : AppOp τ} {choice : Choice} {w w' : World τ}
    {res : Except JsError (op.Out τ)} (hop : op.leavesKeys = true)
    (h : op.exec choice w = some (res, w')) : LeavesKeys w w' := by
  have hstored : ∀ {β : Type} {r : Except JsError β × World τ} {res : Except JsError β},
      LeavesKeys w r.2 → stored choice w r = some (res, w') → LeavesKeys w w' := by
    intro β r res hr hs
    rcases stored_cases hs with ⟨-, rfl⟩ | ⟨_, -, rfl | rfl⟩
    · exact hr
    · exact hr
    · exact LeavesKeys.refl _
  cases op with
  | authority o => exact o.exec_leavesKeys hop h
  | jobs o => exact hstored ⟨rfl, rfl, fun _ => rfl, .same rfl (Nat.le_refl _)⟩ h
  | schedules o => exact hstored ⟨rfl, rfl, fun _ => rfl, .same rfl (Nat.le_refl _)⟩ h
  | webhooks o => exact hstored ⟨rfl, rfl, fun _ => rfl, .same rfl (Nat.le_refl _)⟩ h
  | notifications o => exact hstored ⟨rfl, rfl, fun _ => rfl, .same rfl (Nat.le_refl _)⟩ h
  | apiKeys o =>
    cases o with
    | create | rotate | updateIfVersion => cases hop
    | getKey | getPrefix | listKeys =>
      exact hstored ⟨rfl, rfl, fun _ => rfl, .same rfl (Nat.le_refl _)⟩ h
  | configuration o => exact hstored ⟨rfl, rfl, fun _ => rfl, .same rfl (Nat.le_refl _)⟩ h
  | secretMetadata o => exact hstored ⟨rfl, rfl, fun _ => rfl, .same rfl (Nat.le_refl _)⟩ h
  | audit o => cases o <;> exact hstored ⟨rfl, rfl, fun _ => rfl, .same rfl (Nat.le_refl _)⟩ h
  | commit ops => cases hop
  | host o =>
    rw [o.exec_world h]
    exact LeavesKeys.refl w

/-! ## What happens to the key store -/

/-- The tables with a key issued. -/
def ApiKeyTables.issued (db : ApiKeyTables τ) (key : ApiKey τ) : ApiKeyTables τ where
  keys := db.keys.put key.id key
  prefixes := db.prefixes.put key.keyPrefix (prefixRecord key)

/-- The tables with the next version of a key. -/
def ApiKeyTables.replaced (db : ApiKeyTables τ) (current next : ApiKey τ) : ApiKeyTables τ :=
  { db with keys := db.keys.put current.id { next with version := current.version + 1 } }

omit [Timestamp τ] in
theorem issued_eq_some {db db' : ApiKeyTables τ} {key : ApiKey τ}
    (h : issueOperations db key = some db') :
    db.keys.get key.id = none ∧ db.prefixes.get key.keyPrefix = none ∧ db' = db.issued key := by
  unfold issueOperations at h
  split at h
  · next keys prefixes hkeys hprefixes =>
    obtain ⟨hkey, rfl⟩ := Table.insertAbsent_eq_some hkeys
    obtain ⟨hunclaimed, rfl⟩ := Table.insertAbsent_eq_some hprefixes
    exact ⟨hkey, hunclaimed, (Option.some.inj h).symm⟩
  · cases h

omit [Timestamp τ] in
theorem rotateOperations_eq_some {db db' : ApiKeyTables τ} {current retired replacement : ApiKey τ}
    (h : rotateOperations db current retired replacement = some db') :
    ∃ stored, db.keys.get current.id = some stored ∧ stored.version = current.version ∧
      replacement.id ≠ current.id ∧ db.keys.get replacement.id = none ∧
      db.prefixes.get replacement.keyPrefix = none ∧
      db' = (db.replaced current retired).issued replacement := by
  unfold rotateOperations at h
  split at h
  · next stored hstored =>
    split at h
    · next hversion =>
      obtain ⟨hkey, hunclaimed, rfl⟩ := issued_eq_some h
      rw [Table.get_put] at hkey
      by_cases hid : replacement.id = current.id
      · rw [if_pos hid] at hkey
        cases hkey
      · rw [if_neg hid] at hkey
        exact ⟨stored, hstored, hversion, hid, hkey, hunclaimed, rfl⟩
    · cases h
  · cases h

/-- The caller's own key, once it was read. -/
def KeyPhase.ceiling : KeyPhase τ → Option (ApiKey τ)
  | .idle ceiling | .read _ _ ceiling | .storing _ _ ceiling => ceiling
  | _ => none

/-- **What one step does to the key store**: nothing, or it issues a key, writes the next
version of the very record its process held, or does both at once. -/
inductive KeyChange (call : ApiKeyCall τ) (ceiling : Option (ApiKey τ)) (db : ApiKeyTables τ) :
    ApiKeyTables τ → Prop where
  | unchanged : KeyChange call ceiling db db
  | created {key : ApiKey τ} (hkey : KeyCreation call ceiling key)
    (habsent : db.keys.get key.id = none) (hunclaimed : db.prefixes.get key.keyPrefix = none) :
    KeyChange call ceiling db (db.issued key)
  | written {current next : ApiKey τ} (hget : db.keys.get current.id = some current)
    (hlive : current.revokedAt = none) (hwrite : KeyWrite call ceiling current next) :
    KeyChange call ceiling db (db.replaced current next)
  | rotated {t : τ} {current retired replacement : ApiKey τ}
    (hget : db.keys.get current.id = some current)
    (hkeys : Rotation call t ceiling current retired replacement)
    (hother : replacement.id ≠ current.id) (habsent : db.keys.get replacement.id = none)
    (hunclaimed : db.prefixes.get replacement.keyPrefix = none) :
    KeyChange call ceiling db ((db.replaced current retired).issued replacement)

/-- Keys only move along their versions, and none goes away. -/
theorem KeyChange.fence {call : ApiKeyCall τ} {ceiling : Option (ApiKey τ)}
    {db db' : ApiKeyTables τ} (h : KeyChange call ceiling db db') :
    db.keys.Fence db'.keys := by
  have hput : ∀ {t : Table String (ApiKey τ)} {key : ApiKey τ}, t.get key.id = none →
      t.Fence (t.put key.id key) := by
    intro t key habsent
    refine Table.fence_insertAbsent (k := key.id) (a := key) ?_
    unfold Table.insertAbsent
    rw [habsent]
  have hnext : ∀ {current next : ApiKey τ}, db.keys.get current.id = some current →
      db.keys.Fence (db.replaced current next).keys := fun hget =>
    Table.fence_put hget (Nat.lt_succ_self _)
  cases h with
  | unchanged => exact Table.Fence.refl _
  | created _ habsent _ => exact hput habsent
  | written hget _ _ => exact hnext hget
  | @rotated t current retired replacement hget hkeys hother habsent _ =>
    have hretired : db.keys.Fence (db.replaced current retired).keys := hnext hget
    refine hretired.trans (hput ?_)
    show (db.keys.put current.id _).get replacement.id = none
    rw [Table.get_put_other _ _ hother]
    exact habsent

/-! ## The invariant -/

/-- An identity that stands for a key. -/
def VerifiedPrincipal.StandsFor (p : VerifiedPrincipal) (id : String) : Prop :=
  p.verifiedBy = .apiKey ∧ p.credentialId = some id

/-- The order that the key store, the brand and the hints are in. -/
structure KeysInOrder (w : World τ) : Prop where
  keyed : ∀ {id key}, w.apiKeys.keys.get id = some key → key.id = id ∧ id ≠ ""
  known : ∀ {object keyPrefix id}, (keyPrefix, id) ∈ (w.keyMemory object).knownPrefixes →
    ∃ key, w.apiKeys.keys.get id = some key
  refs : ∀ {p}, p ∈ w.verified → p.ref < w.nextRef
  brand : ∀ {p q}, p ∈ w.verified → q ∈ w.verified → p.ref = q.ref → p = q
  bound : ∀ {ref binding}, (ref, binding) ∈ w.bound →
    ∃ p ∈ w.verified, p.ref = ref ∧ p.StandsFor binding.apiKeyId

/-- A copy of a stored key. -/
def KeyCopy (w : World τ) (key : ApiKey τ) : Prop := w.apiKeys.keys.Seen key.id key

/-- What a phase says of the world. -/
def KeyPhase.Sound (w : World τ) : KeyPhase τ → Prop
  | .idle ceiling => ∀ key, ceiling = some key → KeyCopy w key
  | .known id => ∃ key, w.apiKeys.keys.get id = some key
  | .lost => False
  | .read current _ ceiling => KeyCopy w current ∧ ∀ key, ceiling = some key → KeyCopy w key
  | .storing current stored ceiling => KeyCopy w current ∧ stored.id = current.id ∧
      KeyCopy w stored ∧ current.version ≤ stored.version ∧
      (stored.version = current.version → stored = current) ∧
      ∀ key, ceiling = some key → KeyCopy w key
  | .issued key | .rotated _ key => ∃ stored, w.apiKeys.keys.get key.id = some stored
  | .minted current p => p ∈ w.verified ∧ p.StandsFor current.id
  | .bound current p => p ∈ w.verified ∧ p.StandsFor current.id ∧
      ∃ binding, (p.ref, binding) ∈ w.bound

/-- The world has moved on: nothing that a process knew is gone. -/
structure KeysLater (w w' : World τ) : Prop where
  keys : w.apiKeys.keys.Fence w'.apiKeys.keys
  verified : ∀ p ∈ w.verified, p ∈ w'.verified
  bound : ∀ b ∈ w.bound, b ∈ w'.bound

omit [Timestamp τ] in
theorem KeysLater.refl (w : World τ) : KeysLater w w :=
  ⟨Table.Fence.refl _, fun _ hp => hp, fun _ hb => hb⟩

omit [Timestamp τ] in
theorem KeysLater.trans {w₁ w₂ w₃ : World τ} (h₁₂ : KeysLater w₁ w₂) (h₂₃ : KeysLater w₂ w₃) :
    KeysLater w₁ w₃ :=
  ⟨h₁₂.keys.trans h₂₃.keys, fun p hp => h₂₃.verified p (h₁₂.verified p hp),
    fun b hb => h₂₃.bound b (h₁₂.bound b hb)⟩

omit [Timestamp τ] in
theorem KeysLater.stored {w w' : World τ} (h : KeysLater w w') {id : String} {key : ApiKey τ}
    (hget : w.apiKeys.keys.get id = some key) : ∃ key', w'.apiKeys.keys.get id = some key' := by
  obtain ⟨key', hget', -⟩ := h.keys id key hget
  exact ⟨key', hget'⟩

omit [Timestamp τ] in
theorem KeyCopy.later {w w' : World τ} {key : ApiKey τ} (h : KeyCopy w key) (hw : KeysLater w w') :
    KeyCopy w' key := h.fence hw.keys

omit [Timestamp τ] in
theorem KeyCopy.of_get {w : World τ} (hw : KeysInOrder w) {id : String} {key : ApiKey τ}
    (hget : w.apiKeys.keys.get id = some key) : key.id = id ∧ KeyCopy w key := by
  obtain ⟨rfl, -⟩ := hw.keyed hget
  exact ⟨rfl, Table.Seen.of_get hget⟩

omit [Timestamp τ] in
theorem KeyPhase.Sound.later {w w' : World τ} (hw : KeysLater w w') {ph : KeyPhase τ}
    (h : ph.Sound w) : ph.Sound w' := by
  cases ph with
  | idle ceiling => exact fun key hkey => (h key hkey).later hw
  | known id =>
    obtain ⟨key, hget⟩ := h
    exact hw.stored hget
  | lost => exact h
  | read current time ceiling => exact ⟨h.1.later hw, fun key hkey => (h.2 key hkey).later hw⟩
  | storing current stored ceiling =>
    obtain ⟨hcurrent, hid, hstored, hle, hsame, hceiling⟩ := h
    exact ⟨hcurrent.later hw, hid, hstored.later hw, hle, hsame,
      fun key hkey => (hceiling key hkey).later hw⟩
  | issued key =>
    obtain ⟨stored, hget⟩ := h
    exact hw.stored hget
  | rotated current key =>
    obtain ⟨stored, hget⟩ := h
    exact hw.stored hget
  | minted current p => exact ⟨hw.verified p h.1, h.2⟩
  | bound current p =>
    obtain ⟨hp, hstands, binding, hbinding⟩ := h
    exact ⟨hw.verified p hp, hstands, binding, hw.bound _ hbinding⟩

/-! ## What one step does -/

/-- What a service object remembers is replaced. -/
def World.withMemory (w : World τ) (object : Nat) (memory : ApiKeyMemory τ) : World τ :=
  { w with keyMemory := fun s => if s = object then memory else w.keyMemory s }

/-- A step leaves the keys alone, adds a hint or a binding, or changes the key store. -/
inductive KeyEffect (ph : KeyPhase τ) (step : (apiKeyPlatform τ).Step) : Prop where
  | leaves (hleaves : LeavesKeys step.before step.after)
  | remembers {object : Nat} {keyPrefix id : String} (hid : ph.storedId = some id)
    (hafter : step.after = step.before.withMemory object
      ((ApiKeyMemoryOp.rememberPrefix keyPrefix id).exec (step.before.keyMemory object)).2)
  | binds {current : ApiKey τ} {p : VerifiedPrincipal} {binding : CredentialBinding}
    (hph : ph = .minted current p) (hbinding : binding.apiKeyId = current.id)
    (hafter : step.after =
      { step.before with bound := (p.ref, binding) :: step.before.bound })
  | changes {apiKeys : ApiKeyTables τ}
    (hchange : KeyChange step.call ph.ceiling step.before.apiKeys apiKeys)
    (hafter : step.after = { step.before with apiKeys })

theorem KeyStep.change {ph ph' : KeyPhase τ} {step : (apiKeyPlatform τ).Step} {choice : Choice}
    (hstep : KeyStep ph step ph') (hph : ph.Sound step.before)
    (hexec : AppOp.exec step.op choice step.before = some (step.res, step.after)) :
    KeyEffect ph step := by
  -- a write went through or it did not
  have hwrote : ∀ {call : ApiKeyCall τ} {op : AppOp τ} {β : Type} {r res : Except JsError β}
      {res' : Except JsError (op.Out τ)} {apiKeys : ApiKeyTables τ} {before after : World τ},
      KeyChange call ph.ceiling before.apiKeys apiKeys →
      stored choice before (r, { before with apiKeys }) = some (res, after) →
      KeyEffect ph ⟨call, op, res', before, after⟩ := by
    intro call op β r res res' apiKeys before after hchange h
    rcases stored_cases h with ⟨-, rfl⟩ | ⟨message, -, rfl | rfl⟩
    · exact .changes hchange rfl
    · exact .changes hchange rfl
    · exact .leaves (LeavesKeys.refl _)
  cases hstep with
  | plain hop => exact .leaves (exec_leavesKeys hop hexec)
  | prefixKnown | get | lose | time | caller | callerOf | getAgain | mint =>
    exact .leaves (exec_leavesKeys rfl hexec)
  | stray => exact hph.elim
  | remember hid =>
    exact .remembers hid (computed_ok hexec).2
  | bind hbinding => exact .binds rfl hbinding (computed_ok hexec).2
  | @write call current stored sent cleared ceiling res before after hlive hwrite =>
    obtain ⟨hcurrent, hid, hstored, hle, hsame, -⟩ := hph
    simp only [AppOp.exec, ApiKeyOp.exec] at hexec
    obtain ⟨r, keys, heq⟩ : ∃ r keys, before.apiKeys.keys.updateIfVersion current.id
        current.version (mergeKey sent cleared) = (r, keys) := ⟨_, _, rfl⟩
    rw [heq] at hexec
    refine hwrote ?_ hexec
    rcases Table.updateIfVersion_eq heq with ⟨now, hget, hversion, -, rfl⟩ | ⟨-, rfl⟩
    · -- the version is the one that was read, so nothing happened since
      have hnow : now = current := hcurrent.current hget hversion
      subst hnow
      obtain ⟨later, hlater, hge, -⟩ := hstored
      rw [hid, hget] at hlater
      obtain rfl := Option.some.inj hlater
      have hversions : stored.version = now.version := Nat.le_antisymm hge hle
      exact .written hget hlive (hwrite (hsame hversions))
    · exact .unchanged
  | @create call ceiling key res before after hkey =>
    simp only [AppOp.exec, ApiKeyOp.exec] at hexec
    cases hissue : issueOperations before.apiKeys key with
    | none =>
      rw [hissue] at hexec
      exact hwrote .unchanged hexec
    | some db =>
      rw [hissue] at hexec
      obtain ⟨habsent, hunclaimed, rfl⟩ := issued_eq_some hissue
      exact hwrote (.created hkey habsent hunclaimed) hexec
  | @rotate call current retired replacement t ceiling res before after hkeys =>
    simp only [AppOp.exec, ApiKeyOp.exec] at hexec
    cases hrotate : rotateOperations before.apiKeys current retired replacement with
    | none =>
      rw [hrotate] at hexec
      exact hwrote .unchanged hexec
    | some db =>
      rw [hrotate] at hexec
      obtain ⟨stored, hget, hversion, hother, habsent, hunclaimed, rfl⟩ :=
        rotateOperations_eq_some hrotate
      obtain rfl : stored = current := hph.1.current hget hversion
      exact hwrote (.rotated hget hkeys hother habsent hunclaimed) hexec

/-! ## The invariant is kept -/

omit [Timestamp τ] in
theorem LeavesKeys.later {w w' : World τ} (h : LeavesKeys w w') : KeysLater w w' := by
  refine ⟨?_, ?_, ?_⟩
  · rw [h.apiKeys]
    exact Table.Fence.refl _
  · intro p hp
    rcases h.brand with ⟨hverified, -⟩ | ⟨claims, verifiedBy, hverified, -⟩
    · rw [hverified]
      exact hp
    · rw [hverified]
      exact List.mem_cons_of_mem _ hp
  · rw [h.bound]
    exact fun _ hb => hb

theorem KeyEffect.later {ph : KeyPhase τ} {step : (apiKeyPlatform τ).Step}
    (h : KeyEffect ph step) : KeysLater step.before step.after := by
  cases h with
  | leaves hleaves => exact hleaves.later
  | remembers _ hafter =>
    rw [hafter]
    exact ⟨Table.Fence.refl _, fun _ hp => hp, fun _ hb => hb⟩
  | binds _ _ hafter =>
    rw [hafter]
    exact ⟨Table.Fence.refl _, fun _ hp => hp, fun _ hb => List.mem_cons_of_mem _ hb⟩
  | changes hchange hafter =>
    rw [hafter]
    exact ⟨hchange.fence, fun _ hp => hp, fun _ hb => hb⟩

/-- Every record after a change is one of before, a new one, or a new version. -/
theorem KeyChange.keyed {call : ApiKeyCall τ} {ceiling : Option (ApiKey τ)}
    {db db' : ApiKeyTables τ} (h : KeyChange call ceiling db db') (hdb : ∀ {id key}, db.keys.get id = some key →
      key.id = id ∧ id ≠ "") {id : String} {key : ApiKey τ} (hget : db'.keys.get id = some key) : key.id = id ∧ id ≠ "" := by
  have hissued : ∀ {t : Table String (ApiKey τ)} {new : ApiKey τ}, new.id ≠ "" →
      (∀ {id key}, t.get id = some key → key.id = id ∧ id ≠ "") →
      (t.put new.id new).get id = some key → key.id = id ∧ id ≠ "" := by
    intro t new hnew ht hput
    rw [Table.get_put] at hput
    by_cases hid : id = new.id
    · rw [if_pos hid] at hput
      obtain rfl := Option.some.inj hput
      exact ⟨hid.symm, hid ▸ hnew⟩
    · rw [if_neg hid] at hput
      exact ht hput
  have hreplaced : ∀ {current next : ApiKey τ}, db.keys.get current.id = some current →
      next.id = current.id → ∀ {id key}, (db.replaced current next).keys.get id = some key →
      key.id = id ∧ id ≠ "" := by
    intro current next hcurrent hnext id key hput
    replace hput : (db.keys.put current.id _).get id = some key := hput
    rw [Table.get_put] at hput
    by_cases hid : id = current.id
    · rw [if_pos hid] at hput
      obtain rfl := Option.some.inj hput
      exact ⟨hnext.trans hid.symm, hid ▸ (hdb hcurrent).2⟩
    · rw [if_neg hid] at hput
      exact hdb hput
  cases h with
  | unchanged => exact hdb hget
  | created hkey _ _ => exact hissued hkey.fresh.id hdb hget
  | written hcurrent _ hwrite =>
    refine hreplaced hcurrent ?_ hget
    cases hwrite <;> rfl
  | rotated hcurrent hkeys _ _ _ =>
    refine hissued hkeys.fresh.id (hreplaced hcurrent ?_) hget
    obtain ⟨overlapSeconds, overlapEnd, rotatedBy, -, -, rfl⟩ := hkeys.retirement
    unfold ApiKeyService.retire
    dsimp only
    split <;> rfl

omit [Timestamp τ] in
/-- What is remembered was remembered, or is the new entry. -/
theorem mem_rememberPrefix {memory : ApiKeyMemory τ} {keyPrefix id : String} {entry : String × String}
    (h : entry ∈ ((ApiKeyMemoryOp.rememberPrefix keyPrefix id).exec memory).2.knownPrefixes) :
    entry ∈ memory.knownPrefixes ∨ entry = (keyPrefix, id) := by
  simp only [ApiKeyMemoryOp.exec, evictOldest] at h
  rcases List.mem_append.mp (List.mem_of_mem_drop h) with h | h
  · exact .inl (List.mem_filter.mp h).1
  · exact .inr (List.mem_singleton.mp h)

omit [Timestamp τ] in
/-- The key that a sound phase knows is stored. -/
theorem KeyPhase.Sound.storedId {w : World τ} {ph : KeyPhase τ} (h : ph.Sound w) {id : String}
    (hid : ph.storedId = some id) : ∃ key, w.apiKeys.keys.get id = some key := by
  cases ph with
  | read current time ceiling =>
    obtain rfl := Option.some.inj hid
    obtain ⟨key, hget, -⟩ := h.1
    exact ⟨key, hget⟩
  | issued key =>
    obtain rfl := Option.some.inj hid
    exact h
  | rotated current key =>
    obtain rfl := Option.some.inj hid
    exact h
  | idle | known | lost | storing | minted | bound => cases hid

omit [Timestamp τ] in
/-- A world whose keys are as they were and whose brand may have grown is in order. -/
theorem KeysInOrder.leaves {w w' : World τ} (hw : KeysInOrder w) (h : LeavesKeys w w') :
    KeysInOrder w' where
  keyed hget := hw.keyed (h.apiKeys ▸ hget)
  known {object keyPrefix id} hmem := by
    rw [h.apiKeys]
    rw [h.prefixes] at hmem
    exact hw.known hmem
  refs {p} hp := by
    rcases h.brand with ⟨hverified, href⟩ | ⟨claims, verifiedBy, hverified, href⟩
    · rw [hverified] at hp
      exact Nat.lt_of_lt_of_le (hw.refs hp) href
    · rw [hverified] at hp
      rw [href]
      rcases List.mem_cons.mp hp with rfl | hp
      · exact Nat.lt_succ_self _
      · exact Nat.lt_succ_of_lt (hw.refs hp)
  brand {p q} hp hq hpq := by
    rcases h.brand with ⟨hverified, -⟩ | ⟨claims, verifiedBy, hverified, -⟩
    · rw [hverified] at hp hq
      exact hw.brand hp hq hpq
    · -- the new object has a name no other has
      rw [hverified] at hp hq
      rcases List.mem_cons.mp hp with rfl | hp <;> rcases List.mem_cons.mp hq with rfl | hq
      · rfl
      · exact absurd (hw.refs hq) (Nat.not_lt.mpr hpq.le)
      · exact absurd (hw.refs hp) (Nat.not_lt.mpr hpq.ge)
      · exact hw.brand hp hq hpq
  bound {ref binding} hb := by
    rw [h.bound] at hb
    obtain ⟨p, hp, hstands⟩ := hw.bound hb
    exact ⟨p, h.later.verified p hp, hstands⟩

/-- **A step of a sound phase keeps the order.** -/
theorem KeysInOrder.step {ph : KeyPhase τ} {step : (apiKeyPlatform τ).Step}
    (hw : KeysInOrder step.before) (hph : ph.Sound step.before) (h : KeyEffect ph step) :
    KeysInOrder step.after := by
  have hlater := h.later
  cases h with
  | leaves hleaves => exact hw.leaves hleaves
  | @remembers object keyPrefix id hid hafter =>
    rw [hafter]
    refine ⟨hw.keyed, ?_, hw.refs, hw.brand, hw.bound⟩
    intro object' keyPrefix' id' hmem
    replace hmem : (keyPrefix', id') ∈ (if object' = object then
      ((ApiKeyMemoryOp.rememberPrefix keyPrefix id).exec (step.before.keyMemory object)).2
      else step.before.keyMemory object').knownPrefixes := hmem
    by_cases hobject : object' = object
    · rw [if_pos hobject] at hmem
      rcases mem_rememberPrefix hmem with hmem | heq
      · exact hw.known hmem
      · cases heq
        exact hph.storedId hid
    · rw [if_neg hobject] at hmem
      exact hw.known hmem
  | @binds current p binding hphase hbinding hafter =>
    rw [hafter]
    refine ⟨hw.keyed, hw.known, hw.refs, hw.brand, ?_⟩
    intro ref binding' hmem
    rcases List.mem_cons.mp hmem with heq | hmem
    · cases heq
      subst hphase
      rw [hbinding]
      exact ⟨p, hph.1, rfl, hph.2⟩
    · exact hw.bound hmem
  | changes hchange hafter =>
    rw [hafter] at hlater ⊢
    refine ⟨hchange.keyed hw.keyed, ?_, hw.refs, hw.brand, hw.bound⟩
    intro object keyPrefix id hmem
    obtain ⟨key, hget⟩ := hw.known hmem
    exact hlater.stored hget

/-! ## What a process learns -/

/-- What was read was stored, and stays so. -/
theorem exec_getKey {id : String} {choice : Choice} {w w' : World τ} {found : Option (ApiKey τ)}
    (h : AppOp.exec (.apiKeys (.getKey id)) choice w = some (.ok found, w')) :
    w.apiKeys.keys.get id = found ∧ w' = w := by
  simp only [AppOp.exec, ApiKeyOp.exec] at h
  rcases stored_cases h with ⟨hres, rfl⟩ | ⟨message, hres, -⟩
  · exact ⟨(Except.ok.inj hres).symm, rfl⟩
  · cases hres

theorem KeysInOrder.copy {w w' : World τ} (hw : KeysInOrder w) {id : String} {choice : Choice}
    {key : ApiKey τ} (h : AppOp.exec (.apiKeys (.getKey id)) choice w = some (.ok (some key), w')) :
    key.id = id ∧ KeyCopy w' key := by
  obtain ⟨hget, rfl⟩ := exec_getKey h
  exact KeyCopy.of_get hw hget

/-- A key that went out is stored. -/
theorem exec_create {key : ApiKey τ} {choice : Choice} {w w' : World τ}
    (h : AppOp.exec (.apiKeys (.create key)) choice w = some (.ok (), w')) :
    issueOperations w.apiKeys key = some w'.apiKeys := by
  simp only [AppOp.exec, ApiKeyOp.exec] at h
  cases hissue : issueOperations w.apiKeys key with
  | none =>
    rw [hissue] at h
    rcases stored_cases h with ⟨hres, -⟩ | ⟨message, hres, -⟩ <;> cases hres
  | some db =>
    rw [hissue] at h
    rcases stored_cases h with ⟨-, rfl⟩ | ⟨message, hres, -⟩
    · rfl
    · cases hres

theorem exec_rotate {current retired replacement : ApiKey τ} {choice : Choice} {w w' : World τ}
    (h : AppOp.exec (.apiKeys (.rotate current retired replacement)) choice w = some (.ok (), w')) :
    rotateOperations w.apiKeys current retired replacement = some w'.apiKeys := by
  simp only [AppOp.exec, ApiKeyOp.exec] at h
  cases hrotate : rotateOperations w.apiKeys current retired replacement with
  | none =>
    rw [hrotate] at h
    rcases stored_cases h with ⟨hres, -⟩ | ⟨message, hres, -⟩ <;> cases hres
  | some db =>
    rw [hrotate] at h
    rcases stored_cases h with ⟨-, rfl⟩ | ⟨message, hres, -⟩
    · rfl
    · cases hres

omit [Timestamp τ] in
theorem ApiKeyTables.get_issued (db : ApiKeyTables τ) (key : ApiKey τ) (id : String) :
    (db.issued key).keys.get id = if id = key.id then some key else db.keys.get id := rfl

omit [Timestamp τ] in
theorem ApiKeyTables.get_replaced (db : ApiKeyTables τ) (current next : ApiKey τ) (id : String) :
    (db.replaced current next).keys.get id =
      if id = current.id then some { next with version := current.version + 1 }
      else db.keys.get id := rfl

/-- **The phase a step leads to is sound of the world it leaves.** -/
theorem KeyStep.sound {ph ph' : KeyPhase τ} {step : (apiKeyPlatform τ).Step} {choice : Choice}
    (hstep : KeyStep ph step ph') (hw : KeysInOrder step.before) (hph : ph.Sound step.before)
    (hexec : AppOp.exec step.op choice step.before = some (step.res, step.after)) :
    ph'.Sound step.after := by
  have hlater := (hstep.change hph hexec).later
  have hnone : ∀ {current : ApiKey τ} {w : World τ}, KeyCopy w current →
      ∀ time, (KeyPhase.read current time none).Sound w :=
    fun hcopy _ => ⟨hcopy, fun key hkey => by cases hkey⟩
  have hidle : ∀ w : World τ, (KeyPhase.idle none).Sound w := fun _ key hkey => by cases hkey
  cases hstep with
  | plain => exact hph.later hlater
  | stray => exact hph
  | remember => exact hph.later hlater
  | @prefixKnown _ call object keyPrefix res before after =>
    match res with
    | .error e => exact hidle _
    | .ok none => exact hidle _
    | .ok (some id) =>
      have hlookup : (before.keyMemory object).knownPrefixes.lookup keyPrefix = some id :=
        (Except.ok.inj (computed_ok hexec).1).symm
      obtain ⟨key, hget⟩ := hw.known (mem_of_lookup_eq hlookup)
      exact hlater.stored hget
  | @get _ call id res before after =>
    match res with
    | .error e => exact hidle _
    | .ok none => exact hidle _
    | .ok (some key) => exact hnone (hw.copy hexec).2 none
  | lose =>
    -- keys do not go away
    obtain ⟨key, hget⟩ := hph
    rw [(exec_getKey hexec).1] at hget
    cases hget
  | time => exact hph.later hlater
  | caller hid =>
    intro key hkey
    obtain rfl := Option.some.inj hkey
    exact (hw.copy hexec).2
  | callerOf hid =>
    refine ⟨hph.1.later hlater, fun key hkey => ?_⟩
    obtain rfl := Option.some.inj hkey
    exact (hw.copy hexec).2
  | @getAgain call current stored time ceiling before after =>
    obtain ⟨hid, hstored⟩ := hw.copy hexec
    obtain ⟨hget, hsame⟩ := exec_getKey hexec
    obtain rfl : after = before := hsame
    obtain ⟨now, hnow, hle, hsame⟩ := hph.1
    rw [hget] at hnow
    obtain rfl := Option.some.inj hnow
    exact ⟨hph.1, hid, hstored, hle, hsame, hph.2⟩
  | write hlive hwrite => exact hnone (hph.1.later hlater) none
  | @create call ceiling key res before after hkey =>
    match res with
    | .error e => exact hph.later hlater
    | .ok () =>
      obtain ⟨-, -, hafter⟩ := issued_eq_some (exec_create hexec)
      refine ⟨key, ?_⟩
      show after.apiKeys.keys.get key.id = some key
      rw [hafter, ApiKeyTables.get_issued, if_pos rfl]
  | @rotate call current retired replacement t ceiling res before after hkeys =>
    match res with
    | .error e => exact hidle _
    | .ok () =>
      obtain ⟨-, -, -, -, -, -, hafter⟩ := rotateOperations_eq_some (exec_rotate hexec)
      refine ⟨replacement, ?_⟩
      show after.apiKeys.keys.get replacement.id = some replacement
      rw [hafter, ApiKeyTables.get_issued, if_pos rfl]
  | @mint call current time ceiling claims p before after hlive hclaims =>
    obtain ⟨hres, hafter⟩ := computed_ok hexec
    have hp : p = mintedPrincipal claims .apiKey before.nextRef := Except.ok.inj hres
    have hverified : after.verified = p :: before.verified := by rw [hp]; exact congrArg _ hafter
    obtain ⟨stored, hget, -⟩ := hph.1
    refine ⟨?_, by rw [hp]; rfl, ?_⟩
    · show p ∈ after.verified
      rw [hverified]
      exact List.mem_cons_self
    · rw [hp]
      show keepPresent claims.credentialId = some current.id
      rw [hclaims, keepPresent, present, if_pos (bne_iff_ne.mpr (hw.keyed hget).2)]
  | @bind call current p binding res before after hbinding =>
    have hafter : after.bound = (p.ref, binding) :: before.bound :=
      congrArg World.bound (computed_ok hexec).2
    refine ⟨hlater.verified p hph.1, hph.2, binding, ?_⟩
    show (p.ref, binding) ∈ after.bound
    rw [hafter]
    exact List.mem_cons_self

/-! ## Over a whole run -/

/-- The environment leaves the keys alone. -/
theorem apiKeyEnv_leavesKeys {move : ApiKeyEnv τ} {w w' : World τ} (h : apiKeyEnv move w = some w') :
    LeavesKeys w w' := by
  cases move with
  | tick t =>
    simp only [apiKeyEnv] at h
    split at h
    · cases h
      exact ⟨rfl, rfl, fun _ => rfl, .same rfl (Nat.le_refl _)⟩
    · cases h
  | others f =>
    cases h
    exact ⟨rfl, rfl, fun _ => rfl, .same rfl (Nat.le_refl _)⟩

/-- **The base invariant.** The keys are in order, and every phase is sound. -/
def KeyBase (w : World τ) (_ : (apiKeyPlatform τ).History) (phases : (keyProtocol τ).Phases) : Prop :=
  KeysInOrder w ∧ ∀ q phq, phases q = some phq → KeyPhase.Sound w phq

theorem keyBase_local (cond : (apiKeyPlatform τ).History → (apiKeyPlatform τ).Event → Prop) :
    (keyProtocol τ).LocalOver cond (fun _ _ _ => True) (fun w _ => KeysInOrder w)
      (fun w _ _ ph => KeyPhase.Sound w ph) where
  spawn _ _ _ := fun key hkey => by cases hkey
  good h := by
    obtain ⟨choice, hexec⟩ := h.exec
    exact h.good.step h.own (h.next.change h.own hexec)
  own h := by
    obtain ⟨choice, hexec⟩ := h.exec
    exact h.next.sound h.good h.own hexec
  other h _ hq := by
    obtain ⟨choice, hexec⟩ := h.exec
    exact (h.sound _ _ hq).later (h.next.change h.own hexec).later
  stopGood hw _ := hw
  stopOther _ h := h
  envGood _ hw henv := hw.leaves (apiKeyEnv_leavesKeys henv)
  envSound _ _ h henv := KeyPhase.Sound.later (apiKeyEnv_leavesKeys henv).later h

theorem keyBase (cond : (apiKeyPlatform τ).History → (apiKeyPlatform τ).Event → Prop) :
    (keyProtocol τ).Inductive cond KeyBase := (keyBase_local cond).toInductive

/-! ### A store with one key -/

section sample

def keyService : ApiKeyService where
  node := {
    hmac := fun _ secret => secret
    scrypt := fun _ _ keylen => ⟨List.replicate keylen 2, List.length_replicate⟩
    localeCompare := fun a b => compare a b }
  applicationId := "crm"
  authority := some { application := "crm", authorizer := true, credentials := false }

/-- An identity of the host. -/
def keyKeeper : VerifiedPrincipal :=
  mintedPrincipal { principalId := "user-2", principalType := "user", tenantId := "acme" } .host 0

def storedKey : ApiKey Nat where
  id := "k1"
  tenantId := "acme"
  applicationId := some "crm"
  name := "ci"
  keyPrefix := "app_live_000000"
  secretHash := "scrypt$AA$Ag"
  createdAt := 0
  createdBy := "user-2"

/-- One key is stored, and its keeper is known. -/
def oneKeyWorld (key : ApiKey Nat) : World Nat where
  clock := 0
  nextRef := 1
  verified := [keyKeeper]
  apiKeys := ({} : ApiKeyTables Nat).issued key

theorem oneKeyWorld_inOrder {key : ApiKey Nat} (hkey : key.id ≠ "") :
    KeysInOrder (oneKeyWorld key) where
  keyed {id stored} hget := by
    simp only [oneKeyWorld, ApiKeyTables.get_issued] at hget
    by_cases hid : id = key.id
    · rw [if_pos hid] at hget
      obtain rfl := Option.some.inj hget
      exact ⟨hid.symm, hid ▸ hkey⟩
    · rw [if_neg hid] at hget
      cases hget
  known hmem := by cases hmem
  refs hp := by
    rw [List.mem_singleton.mp hp]
    exact Nat.zero_lt_one
  brand hp hq _ := (List.mem_singleton.mp hp).trans (List.mem_singleton.mp hq).symm
  bound hmem := by cases hmem

/-- The calls of one process, answered. -/
def keyAnswers (pid : Nat) (choices : List Choice) : List (apiKeyPlatform Nat).Action :=
  choices.map (.step pid)

def authenticating : ApiKeyCall Nat :=
  ⟨keyService, .authenticateApiKey (.str "app_live_000000_x")⟩

/-- The identity of the stored key. -/
def keyPrincipal : VerifiedPrincipal :=
  mintedPrincipal { principalId := "k1", principalType := "api_key", tenantId := "acme"
                    applicationId := some "crm", credentialId := some "k1" } .apiKey 1

/-- The stored key authenticates. -/
def authenticatedRun : List (apiKeyPlatform Nat).Action :=
  [.spawn authenticating] ++
    keyAnswers 0 [.proceed, .proceed, .proceed, .proceed, .proceed, .proceed, .proceed, .draw "a1",
      .proceed, .proceed, .proceed, .proceed]

/-- The gateway, up to the effect: the authorizer allows a subject this of the stored key,
and the checks of the subject take `checks` calls. -/
def keyPermitted (subject : String) (checks : Nat) (capability row : String) : List Choice :=
  [.proceed, .draw "request"] ++ List.replicate (checks + 4) .proceed ++ [
    .decision false (.ok (.obj [
      ("decision_id", .str "d1"), ("allowed", .bool true), ("capability", .str capability),
      ("tenant_id", .str "acme"), ("application_id", .str "crm"),
      ("subject", .obj [("id", .str subject)]),
      ("resource", .obj [("uri", .str "appport://crm/tenants/acme/api_key/k1")])])),
    .proceed, .proceed, .proceed, .proceed, .proceed, .draw row, .proceed]

end sample

end AppPort
