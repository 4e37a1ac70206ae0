import AppPort.ApiKeys.Records

/-!
# Which key replaced which

Rotating a key writes two records and a prefix pointer in one transaction. Over every run
of the key service the records then agree: a key names its replacement exactly when the
replacement names the key, so no key has two, and every prefix leads to the key that bears
it. At most one call ever answers with a replacement of a key.
-/

namespace AppPort

open Effects Effects.Platform

variable {τ : Type}

/-! ## The records agree -/

/-- The replacement that the key under an id names. -/
def ApiKeyTables.next (db : ApiKeyTables τ) (id : String) : Option String :=
  (db.keys.get id).bind fun key => key.rotatedTo

/-- The key that the one under an id says it replaced. -/
def ApiKeyTables.previous (db : ApiKeyTables τ) (id : String) : Option String :=
  (db.keys.get id).bind fun key => key.rotatedFrom

/-- The pointer that should lead to the key under an id. -/
def ApiKeyTables.pointer (db : ApiKeyTables τ) (id : String) : Option (ApiKeyPrefixRecord τ) :=
  (db.keys.get id).map prefixRecord

/-- The links between keys, and those from prefixes to keys. -/
structure KeyLineage (db : ApiKeyTables τ) : Prop where
  linked : ∀ a b, db.next a = some b ↔ db.previous b = some a
  pointed : ∀ keyPrefix record, db.prefixes.get keyPrefix = some record ↔
    record.id = keyPrefix ∧ db.pointer record.apiKeyId = some record

theorem KeyLineage.empty : KeyLineage ({} : ApiKeyTables τ) where
  linked a b := by simp [ApiKeyTables.next, ApiKeyTables.previous]
  pointed keyPrefix record := by simp [ApiKeyTables.pointer]

/-- A link more between two ends that had none. -/
theorem linked_update {κ : Type} [DecidableEq κ] {next previous : κ → Option κ}
    (h : ∀ a b, next a = some b ↔ previous b = some a) {old new : κ} (hold : next old = none)
    (hnew : previous new = none) (a b : κ) :
    Function.update next old (some new) a = some b ↔
      Function.update previous new (some old) b = some a := by
  simp only [Function.update_apply]
  by_cases ha : a = old
  · by_cases hb : b = new
    · simp [ha, hb]
    · have hno : previous b ≠ some old := by
        intro hback
        rw [(h old b).mpr hback] at hold
        cases hold
      simp [ha, hb, hno, Ne.symm hb]
  · by_cases hb : b = new
    · have hno : next a ≠ some new := by
        intro hto
        rw [(h a new).mp hto] at hnew
        cases hnew
      simp [ha, hb, hno, Ne.symm ha]
    · simp [ha, hb, h]

/-- What the links of a key are made of. -/
structure SameLinks (key key' : ApiKey τ) : Prop where
  pointer : prefixRecord key' = prefixRecord key
  rotatedFrom : key'.rotatedFrom = key.rotatedFrom

section replaced

variable {db : ApiKeyTables τ} {current next : ApiKey τ}

theorem ApiKeyTables.previous_replaced (hget : db.keys.get current.id = some current)
    (hlinks : SameLinks current next) : (db.replaced current next).previous = db.previous := by
  funext id
  simp only [previous, get_replaced]
  by_cases hid : id = current.id
  · simp [hid, hget, hlinks.rotatedFrom]
  · simp [hid]

theorem ApiKeyTables.pointer_replaced (hget : db.keys.get current.id = some current)
    (hlinks : SameLinks current next) : (db.replaced current next).pointer = db.pointer := by
  funext id
  simp only [pointer, get_replaced]
  by_cases hid : id = current.id
  · rw [if_pos hid, hid, hget]
    exact congrArg some hlinks.pointer
  · rw [if_neg hid]

theorem ApiKeyTables.next_replaced (hget : db.keys.get current.id = some current)
    (hto : next.rotatedTo = current.rotatedTo) : (db.replaced current next).next = db.next := by
  funext id
  simp only [ApiKeyTables.next, get_replaced]
  by_cases hid : id = current.id
  · simp [hid, hget, hto]
  · simp [hid]

theorem ApiKeyTables.next_retired {id : String} (hto : next.rotatedTo = some id) :
    (db.replaced current next).next = Function.update db.next current.id (some id) := by
  funext id'
  simp only [ApiKeyTables.next, get_replaced, Function.update_apply]
  by_cases hid : id' = current.id
  · simp [hid, hto]
  · simp [hid]

end replaced

section issued

variable {db : ApiKeyTables τ} {key : ApiKey τ}

theorem ApiKeyTables.next_issued (habsent : db.keys.get key.id = none)
    (hto : key.rotatedTo = none) : (db.issued key).next = db.next := by
  funext id
  simp only [ApiKeyTables.next, get_issued]
  by_cases hid : id = key.id
  · simp [hid, habsent, hto]
  · simp [hid]

theorem ApiKeyTables.previous_issued :
    (db.issued key).previous = Function.update db.previous key.id key.rotatedFrom := by
  funext id
  simp only [previous, get_issued, Function.update_apply]
  by_cases hid : id = key.id
  · simp [hid]
  · simp [hid]

theorem ApiKeyTables.pointer_issued :
    (db.issued key).pointer = Function.update db.pointer key.id (some (prefixRecord key)) := by
  funext id
  simp only [pointer, get_issued, Function.update_apply]
  by_cases hid : id = key.id
  · simp [hid]
  · simp [hid]

/-- The pointers, once a key was issued. -/
theorem ApiKeyTables.pointed_issued (h : ∀ keyPrefix record,
    db.prefixes.get keyPrefix = some record ↔
      record.id = keyPrefix ∧ db.pointer record.apiKeyId = some record)
    (habsent : db.keys.get key.id = none) (hunclaimed : db.prefixes.get key.keyPrefix = none)
    (keyPrefix : String) (record : ApiKeyPrefixRecord τ) :
    (db.issued key).prefixes.get keyPrefix = some record ↔
      record.id = keyPrefix ∧ (db.issued key).pointer record.apiKeyId = some record := by
  rw [pointer_issued]
  show (db.prefixes.put key.keyPrefix (prefixRecord key)).get keyPrefix = some record ↔ _
  rw [Table.get_put, Function.update_apply]
  have hnone : db.pointer key.id = none := by simp [pointer, habsent]
  have hold := h keyPrefix record
  by_cases hp : keyPrefix = key.keyPrefix
  · by_cases hid : record.apiKeyId = key.id
    · rw [if_pos hp, if_pos hid]
      constructor
      · intro heq
        obtain rfl := Option.some.inj heq
        exact ⟨hp.symm, rfl⟩
      · exact fun heq => heq.2
    · rw [if_pos hp, if_neg hid]
      constructor
      · intro heq
        obtain rfl := Option.some.inj heq
        exact absurd rfl hid
      · intro hrecord
        rw [hp, hunclaimed] at hold
        cases hold.mpr (hp ▸ hrecord)
  · by_cases hid : record.apiKeyId = key.id
    · rw [if_neg hp, if_pos hid]
      constructor
      · intro hget
        have hpointer := (hold.mp hget).2
        rw [hid, hnone] at hpointer
        cases hpointer
      · intro hrecord
        obtain rfl := Option.some.inj hrecord.2
        exact absurd hrecord.1.symm hp
    · rw [if_neg hp, if_neg hid]
      exact hold

end issued

namespace KeyLineage

variable {db : ApiKeyTables τ}

/-- A next version with the same links. -/
theorem replaced (h : KeyLineage db) {current next : ApiKey τ}
    (hget : db.keys.get current.id = some current) (hlinks : SameLinks current next)
    (hto : next.rotatedTo = current.rotatedTo) : KeyLineage (db.replaced current next) where
  linked a b := by
    rw [ApiKeyTables.next_replaced hget hto, ApiKeyTables.previous_replaced hget hlinks]
    exact h.linked a b
  pointed keyPrefix record := by
    rw [ApiKeyTables.pointer_replaced hget hlinks]
    exact h.pointed keyPrefix record

/-- A key that replaces none. -/
theorem issued (h : KeyLineage db) {key : ApiKey τ} (hfresh : FreshKey key)
    (hfrom : key.rotatedFrom = none) (habsent : db.keys.get key.id = none)
    (hunclaimed : db.prefixes.get key.keyPrefix = none) : KeyLineage (db.issued key) where
  linked a b := by
    have hnone : db.previous key.id = none := by simp [ApiKeyTables.previous, habsent]
    rw [ApiKeyTables.next_issued habsent hfresh.rotatedTo, ApiKeyTables.previous_issued,
      hfrom, ← hnone, Function.update_eq_self]
    exact h.linked a b
  pointed := ApiKeyTables.pointed_issued h.pointed habsent hunclaimed

/-- **A rotation.** The retired record names the replacement, which names it. -/
theorem rotated (h : KeyLineage db) {current retired replacement : ApiKey τ}
    (hget : db.keys.get current.id = some current) (hlinks : SameLinks current retired)
    (hto : retired.rotatedTo = some replacement.id) (hunrotated : db.next current.id = none)
    (hfresh : FreshKey replacement) (hfrom : replacement.rotatedFrom = some current.id)
    (hother : replacement.id ≠ current.id) (habsent : db.keys.get replacement.id = none)
    (hunclaimed : db.prefixes.get replacement.keyPrefix = none) :
    KeyLineage ((db.replaced current retired).issued replacement) := by
  have habsent' : (db.replaced current retired).keys.get replacement.id = none := by
    rw [ApiKeyTables.get_replaced, if_neg hother]
    exact habsent
  have hnew : db.previous replacement.id = none := by simp [ApiKeyTables.previous, habsent]
  constructor
  · intro a b
    rw [ApiKeyTables.next_issued habsent' hfresh.rotatedTo, ApiKeyTables.next_retired hto,
      ApiKeyTables.previous_issued, ApiKeyTables.previous_replaced hget hlinks, hfrom]
    exact linked_update h.linked hunrotated hnew a b
  · refine ApiKeyTables.pointed_issued ?_ habsent' hunclaimed
    intro keyPrefix record
    rw [ApiKeyTables.pointer_replaced hget hlinks]
    exact h.pointed keyPrefix record

end KeyLineage

/-! ## What a change does to the links -/

variable [Timestamp τ]

/-- A key that may be rotated names no replacement. -/
theorem Rotation.next_none {call : ApiKeyCall τ} {t : τ} {ceiling : Option (ApiKey τ)}
    {db : ApiKeyTables τ} {current retired replacement : ApiKey τ}
    (h : Rotation call t ceiling current retired replacement) (hdb : KeyLineage db)
    (hkeyed : ∀ {id key}, db.keys.get id = some key → key.id = id ∧ id ≠ "")
    (hget : db.keys.get current.id = some current) : db.next current.id = none := by
  cases hto : db.next current.id with
  | none => rfl
  | some id =>
    have hcurrent : current.rotatedTo = some id := by simpa [ApiKeyTables.next, hget] using hto
    have hempty : id = "" := by simpa [hcurrent, present] using h.unrotated
    -- no key has the empty id
    obtain ⟨new, hnew, -⟩ := Option.bind_eq_some_iff.mp ((hdb.linked _ _).mp hto)
    exact absurd hempty (hkeyed hnew).2

/-- The retired record keeps what the links are made of. -/
theorem Rotation.sameLinks {call : ApiKeyCall τ} {t : τ} {ceiling : Option (ApiKey τ)}
    {current retired replacement : ApiKey τ}
    (h : Rotation call t ceiling current retired replacement) :
    SameLinks current retired ∧ retired.rotatedTo = some replacement.id := by
  obtain ⟨overlapSeconds, overlapEnd, rotatedBy, -, -, rfl⟩ := h.retirement
  unfold ApiKeyService.retire
  dsimp only
  split
  · exact ⟨⟨rfl, rfl⟩, rfl⟩
  · exact ⟨⟨rfl, rfl⟩, rfl⟩

theorem KeyWrite.sameLinks {call : ApiKeyCall τ} {ceiling : Option (ApiKey τ)}
    {current next : ApiKey τ} (h : KeyWrite call ceiling current next) :
    SameLinks current next ∧ next.rotatedTo = current.rotatedTo := by
  cases h with
  | used t => exact ⟨⟨rfl, rfl⟩, rfl⟩
  | revoked t revokedBy => exact ⟨⟨rfl, rfl⟩, rfl⟩
  | updated changes t updatedBy _ _ _ => exact ⟨⟨rfl, rfl⟩, rfl⟩

/-- **Every change keeps the lineage.** -/
theorem KeyChange.lineage {call : ApiKeyCall τ} {ceiling : Option (ApiKey τ)}
    {db db' : ApiKeyTables τ} (h : KeyChange call ceiling db db') (hdb : KeyLineage db)
    (hkeyed : ∀ {id key}, db.keys.get id = some key → key.id = id ∧ id ≠ "") :
    KeyLineage db' := by
  cases h with
  | unchanged => exact hdb
  | created hkey habsent hunclaimed =>
    exact hdb.issued hkey.fresh hkey.rotatedFrom habsent hunclaimed
  | written hget _ hwrite => exact hdb.replaced hget hwrite.sameLinks.1 hwrite.sameLinks.2
  | rotated hget hkeys hother habsent hunclaimed =>
    refine hdb.rotated hget hkeys.sameLinks.1 hkeys.sameLinks.2 (hkeys.next_none hdb hkeyed hget)
      hkeys.fresh ?_ hother habsent hunclaimed
    rw [hkeys.rotatedFrom, keepPresent, present, if_pos (bne_iff_ne.mpr (hkeyed hget).2)]

/-- A link stays, or it appears: at once the key retires, no later than it would have, and
the replacement stands there with its pointer, with the restrictions and the expiry of the
key. -/
structure LinkAppears (db db' : ApiKeyTables τ) (a b : String) : Prop where
  unlinked : db.next a = none
  absent : db.keys.get b = none
  records : ∃ old retired replacement, db.keys.get a = some old ∧ db'.keys.get a = some retired ∧
    db'.keys.get b = some replacement ∧
    db'.prefixes.get replacement.keyPrefix = some (prefixRecord replacement) ∧
    replacement.restrictions = old.restrictions ∧ replacement.expiresAt = old.expiresAt ∧
    old.revokedAt = none ∧ (retired.revokedAt.isSome = true ∨
      ∃ e, retired.expiresAt = some e ∧ ∀ e₀, old.expiresAt = some e₀ → e ≤ e₀)

/-- No link goes away, and each appears whole. -/
def RotatesAtOnce (db db' : ApiKeyTables τ) : Prop :=
  (∀ a b, db.next a = some b → db'.next a = some b) ∧
  ∀ a b, db'.next a = some b → db.next a = some b ∨ LinkAppears db db' a b

theorem RotatesAtOnce.of_next {db db' : ApiKeyTables τ} (h : db'.next = db.next) :
    RotatesAtOnce db db' := by
  refine ⟨fun a b hab => ?_, fun a b hab => .inl ?_⟩
  · rw [h]
    exact hab
  · rw [← h]
    exact hab

/-- A key that is retired with an overlap expires no later than it would have. -/
theorem ApiKeyService.validUntil_le {current : ApiKey τ} {overlapEnd e₀ : τ}
    (h : current.expiresAt = some e₀) : validUntil current overlapEnd ≤ e₀ := by
  simp only [validUntil, h]
  split
  · exact le_refl _
  · next hlt => exact not_lt.mp hlt

theorem Rotation.retires {call : ApiKeyCall τ} {t : τ} {ceiling : Option (ApiKey τ)}
    {current retired replacement : ApiKey τ}
    (h : Rotation call t ceiling current retired replacement) : retired.revokedAt.isSome = true ∨
      ∃ e, retired.expiresAt = some e ∧ ∀ e₀, current.expiresAt = some e₀ → e ≤ e₀ := by
  obtain ⟨overlapSeconds, overlapEnd, rotatedBy, -, -, rfl⟩ := h.retirement
  unfold ApiKeyService.retire
  dsimp only
  split
  · exact .inl rfl
  · exact .inr ⟨_, rfl, fun e₀ he₀ => ApiKeyService.validUntil_le he₀⟩

theorem KeyChange.rotatesAtOnce {call : ApiKeyCall τ} {ceiling : Option (ApiKey τ)}
    {db db' : ApiKeyTables τ} (h : KeyChange call ceiling db db') (hdb : KeyLineage db)
    (hkeyed : ∀ {id key}, db.keys.get id = some key → key.id = id ∧ id ≠ "") :
    RotatesAtOnce db db' := by
  have hlineage := h.lineage hdb hkeyed
  cases h with
  | unchanged => exact .of_next rfl
  | created hkey habsent _ => exact .of_next (ApiKeyTables.next_issued habsent hkey.fresh.rotatedTo)
  | written hget _ hwrite => exact .of_next (ApiKeyTables.next_replaced hget hwrite.sameLinks.2)
  | @rotated t current retired replacement hget hkeys hother habsent hunclaimed =>
    have habsent' : (db.replaced current retired).keys.get replacement.id = none := by
      rw [ApiKeyTables.get_replaced, if_neg hother]
      exact habsent
    have hnext := ApiKeyTables.next_issued habsent' hkeys.fresh.rotatedTo
    rw [ApiKeyTables.next_retired hkeys.sameLinks.2] at hnext
    have hunlinked := hkeys.next_none hdb hkeyed hget
    refine ⟨fun a b hab => ?_, fun a b hab => ?_⟩
    · have ha : a ≠ current.id := by
        intro heq
        rw [heq, hunlinked] at hab
        cases hab
      rw [hnext, Function.update_of_ne ha]
      exact hab
    · rw [hnext] at hab
      by_cases ha : a = current.id
      · subst ha
        rw [Function.update_self] at hab
        obtain rfl := Option.some.inj hab
        have hold : ((db.replaced current retired).issued replacement).keys.get current.id =
            some { retired with version := current.version + 1 } := by
          rw [ApiKeyTables.get_issued, if_neg (Ne.symm hother), ApiKeyTables.get_replaced,
            if_pos rfl]
        have hnew : ((db.replaced current retired).issued replacement).keys.get replacement.id =
            some replacement := by rw [ApiKeyTables.get_issued, if_pos rfl]
        refine .inr ⟨hunlinked, habsent, current, _, replacement, hget, hold, hnew, ?_,
          hkeys.restrictions, hkeys.expiresAt, hkeys.live, hkeys.retires⟩
        exact Table.get_put_same ..
      · rw [Function.update_of_ne ha] at hab
        exact .inl hab

/-! ## Over a whole run -/

/-- The lineage, and who rotated which key. -/
structure RotationsHold (w : World τ) (past : (apiKeyPlatform τ).History)
    (phases : (keyProtocol τ).Phases) : Prop where
  lineage : KeyLineage w.apiKeys
  linked : ∀ {pid current replacement}, phases pid = some (.rotated current replacement) →
    w.apiKeys.next current.id = some replacement.id
  single : ∀ {pid pid' current current' replacement replacement'},
    phases pid = some (.rotated current replacement) →
    phases pid' = some (.rotated current' replacement') → current.id = current'.id → pid = pid'
  atOnce : ∀ {pid step}, .ran pid step ∈ past →
    RotatesAtOnce step.before.apiKeys step.after.apiKeys

/-- What a step does to the links. -/
theorem KeyEffect.rotatesAtOnce {ph : KeyPhase τ} {step : (apiKeyPlatform τ).Step}
    (h : KeyEffect ph step) (hw : KeysInOrder step.before) (hl : KeyLineage step.before.apiKeys) :
    KeyLineage step.after.apiKeys ∧ RotatesAtOnce step.before.apiKeys step.after.apiKeys := by
  cases h with
  | leaves hleaves =>
    rw [hleaves.apiKeys]
    exact ⟨hl, .of_next rfl⟩
  | remembers _ hafter =>
    rw [hafter]
    exact ⟨hl, .of_next rfl⟩
  | binds _ _ hafter =>
    rw [hafter]
    exact ⟨hl, .of_next rfl⟩
  | changes hchange hafter =>
    rw [hafter]
    exact ⟨hchange.lineage hl hw.keyed, hchange.rotatesAtOnce hl hw.keyed⟩

/-- A process is where it was, or it has just rotated a key that named no replacement. -/
theorem KeyStep.toRotated {ph ph' : KeyPhase τ} {step : (apiKeyPlatform τ).Step} {choice : Choice}
    {current replacement : ApiKey τ} (hstep : KeyStep ph step ph') (hw : KeysInOrder step.before)
    (hl : KeyLineage step.before.apiKeys) (hph : ph.Sound step.before)
    (hexec : AppOp.exec step.op choice step.before = some (step.res, step.after))
    (hto : ph' = .rotated current replacement) : ph = .rotated current replacement ∨
      step.before.apiKeys.next current.id = none ∧
        step.after.apiKeys.next current.id = some replacement.id := by
  cases hstep with
  | plain => exact .inl hto
  | remember => exact .inl hto
  | @prefixKnown _ call object keyPrefix res before after =>
    match res with
    | .error e => cases hto
    | .ok none => cases hto
    | .ok (some id) => cases hto
  | @get _ call id res before after =>
    match res with
    | .error e => cases hto
    | .ok none => cases hto
    | .ok (some key) => cases hto
  | @create call ceiling key res before after _ =>
    match res with
    | .error e => cases hto
    | .ok () => cases hto
  | @rotate call current' retired replacement' t ceiling res before after hkeys =>
    match res with
    | .error e => cases hto
    | .ok () =>
      cases hto
      obtain ⟨stored, hget, hversion, hother, habsent, -, hafter⟩ :=
        rotateOperations_eq_some (exec_rotate hexec)
      obtain rfl : stored = current := hph.1.current hget hversion
      refine .inr ⟨hkeys.next_none hl hw.keyed hget, ?_⟩
      have habsent' : (before.apiKeys.replaced stored retired).keys.get replacement.id = none := by
        rw [ApiKeyTables.get_replaced, if_neg hother]
        exact habsent
      show after.apiKeys.next stored.id = some replacement.id
      rw [hafter, ApiKeyTables.next_issued habsent' hkeys.fresh.rotatedTo,
        ApiKeyTables.next_retired hkeys.sameLinks.2, Function.update_self]
  | lose | stray | time | caller | callerOf | getAgain | write | mint | bind => cases hto

theorem rotationsHold (cond : (apiKeyPlatform τ).History → (apiKeyPlatform τ).Event → Prop) :
    (keyProtocol τ).InductiveOver cond KeyBase RotationsHold where
  spawn := by
    intro w past phases pid call _ h hnone _ _
    have hold : ∀ {q current replacement},
        Discipline.Phases.move phases pid (some (.idle none)) q = some (.rotated current replacement) →
        phases q = some (.rotated current replacement) := by
      intro q current replacement hq
      by_cases hpid : q = pid
      · subst hpid
        rw [Discipline.Phases.move_same] at hq
        cases hq
      · rwa [Discipline.Phases.move_other _ _ hpid] at hq
    exact ⟨h.lineage, fun hq => h.linked (hold hq), fun hq hq' => h.single (hold hq) (hold hq'),
      h.atOnce⟩
  step := by
    intro past phases pid ph ph' step choice hbase h hph hexec hnext _
    have hsound := hbase.2 pid ph hph
    have heffect := (hnext.change hsound hexec).rotatesAtOnce hbase.1 h.lineage
    -- whoever has rotated a key had done so before, except the one that moves
    have hold : ∀ {q current replacement},
        Discipline.Phases.move phases pid (some ph') q = some (.rotated current replacement) →
        phases q = some (.rotated current replacement) ∨ q = pid ∧
          step.before.apiKeys.next current.id = none ∧
          step.after.apiKeys.next current.id = some replacement.id := by
      intro q current replacement hq
      by_cases hpid : q = pid
      · subst hpid
        rw [Discipline.Phases.move_same] at hq
        rcases hnext.toRotated hbase.1 h.lineage hsound hexec (Option.some.inj hq) with hsame | hnew
        · exact .inl (hsame ▸ hph)
        · exact .inr ⟨rfl, hnew⟩
      · rw [Discipline.Phases.move_other _ _ hpid] at hq
        exact .inl hq
    refine ⟨heffect.1, fun hq => ?_, fun hq hq' hid => ?_, fun hmem => ?_⟩
    · rcases hold hq with hq | ⟨-, -, hlinked⟩
      · exact heffect.2.1 _ _ (h.linked hq)
      · exact hlinked
    · rcases hold hq with hbefore | ⟨hpid, hnone, -⟩ <;>
        rcases hold hq' with hbefore' | ⟨hpid', hnone', -⟩
      · exact h.single hbefore hbefore' hid
      · rw [← hid, h.linked hbefore] at hnone'
        cases hnone'
      · rw [hid, h.linked hbefore'] at hnone
        cases hnone
      · rw [hpid, hpid']
    · rcases List.mem_cons.mp hmem with heq | hmem
      · cases heq
        exact heffect.2
      · exact h.atOnce hmem
  stop := by
    intro w past phases pid ph call _ h _ _
    have hold : ∀ {q current replacement},
        Discipline.Phases.move phases pid none q = some (.rotated current replacement) →
        phases q = some (.rotated current replacement) := by
      intro q current replacement hq
      by_cases hpid : q = pid
      · subst hpid
        rw [Discipline.Phases.move_same] at hq
        cases hq
      · rwa [Discipline.Phases.move_other _ _ hpid] at hq
    refine ⟨h.lineage, fun hq => h.linked (hold hq), fun hq hq' => h.single (hold hq) (hold hq'),
      fun hmem => ?_⟩
    rcases List.mem_cons.mp hmem with heq | hmem
    · cases heq
    · exact h.atOnce hmem
  env := by
    intro w w' past phases move _ h henv
    have hsame := (apiKeyEnv_leavesKeys henv).apiKeys
    refine ⟨hsame ▸ h.lineage, fun hq => ?_, h.single, h.atOnce⟩
    rw [hsame]
    exact h.linked hq

/-- The call has returned this replacement. -/
def ReturnedRotation (c : (apiKeyPlatform τ).Config) (pid : Nat) (answer : RotatedApiKey τ) : Prop :=
  ∃ call, c.proc pid = some ⟨call, .settled (.ok (.rotated (some answer)))⟩

section sample

/-- A rotation up to its transaction. -/
def rotating (row id : String) (bytes : List UInt8) : List Choice :=
  keyPermitted "user-2" 0 "apikeys.rotate" row ++ [.proceed, .proceed, .bytes bytes,
    .bytes (List.replicate 32 7), .draw id, .bytes (List.replicate 16 9), .proceed]

/-- Two rotations read the key, then one commits and returns and the other finds it rotated. -/
def racingRotations : List (apiKeyPlatform Nat).Action :=
  let call : ApiKeyCall Nat :=
    ⟨keyService, .rotateApiKey { id := .str "k1" } (.of keyKeeper)⟩
  [.spawn call, .spawn call] ++ keyAnswers 0 (rotating "r1" "k2" [1, 2, 3]) ++
    keyAnswers 1 (rotating "r2" "k3" [4, 5, 6]) ++
    keyAnswers 0 [.proceed, .proceed, .proceed, .draw "e1", .proceed, .draw "e2", .proceed,
      .draw "e3", .proceed, .proceed, .proceed, .proceed, .proceed] ++
    keyAnswers 1 (List.replicate 7 .proceed)

/-- The first call returned `id` in place of `replaces`, the second failed. -/
def rotatedOnce (replaces id : String) (c : (apiKeyPlatform Nat).Config) : Bool :=
  match c.proc 0, c.proc 1 with
  | some ⟨_, .settled (.ok (.rotated (some answer)))⟩, some ⟨_, .settled (.error _)⟩ =>
    answer.replaces == replaces && answer.id == id
  | _, _ => false

end sample

end AppPort
