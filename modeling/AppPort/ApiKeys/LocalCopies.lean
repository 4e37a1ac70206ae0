import AppPort.ApiKeys.Protocol
import AppPort.Runtime.Alone

/-!
# The local copies of a process

In local mode a service keeps a copy of each key it has created, because the embedded
database can lag behind what it has just committed. A process here is one service object
over its own database, with operations one after the other. A read may miss a record until
one has returned it, and an audit write may fail; everything else goes through, or fails as
the gateway lets it.

What is proved: as long as no revocation of a tracked key loses its audit write, every copy
is the version that was committed last. `revoke` awaits its audit write before it renews
the copy, so one that is lost leaves the copy behind. No copy that is behind is ever used.
-/

namespace AppPort

open Effects

variable {τ : Type}

/-! ## A process over a database that lags -/

/-- A process, in the course of an operation. -/
structure LocalProcess (τ : Type) where
  world : World τ
  /-- The ids under which a read has returned the record. -/
  returned : List String := []
  /-- The audit events of the operation whose write was rejected. -/
  lost : List (ApiKeyAuditEvent τ) := []

/-- What is open in the answer to a call: which records a read misses, and the rest. -/
structure LocalChoice where
  keys : List String := []
  prefixes : List String := []
  choice : Choice := .proceed

/-- The records that are not missed. -/
def LocalChoice.visible (c : LocalChoice) (db : ApiKeyTables τ) : ApiKeyTables τ where
  keys := c.keys.foldl Table.erase db.keys
  prefixes := c.prefixes.foldl Table.erase db.prefixes

/-- The world as a read finds it. -/
def LocalChoice.view (c : LocalChoice) (w : World τ) : World τ :=
  { w with apiKeys := c.visible w.apiKeys }

/-- The call reads records of the key store. -/
def AppOp.readsKeys : AppOp τ → Bool
  | .apiKeys (.getKey _) | .apiKeys (.getPrefix _) | .apiKeys (.listKeys _)
  | .authority (.checkCredential _ _ _) => true
  | _ => false

/-- The call writes a record of the key store. -/
def AppOp.writesKeys : AppOp τ → Bool
  | .apiKeys (.create _) | .apiKeys (.rotate _ _ _) | .apiKeys (.updateIfVersion _ _ _ _) => true
  | _ => false

/-- The ids under which the call returns a record. -/
def AppOp.returns (w : World τ) : AppOp τ → List String
  | .apiKeys (.getKey id) => if (w.apiKeys.keys.get id).isSome then [id] else []
  | .apiKeys (.listKeys tenantId) =>
    (w.apiKeys.keys.find fun key => key.tenantId == tenantId).map ApiKey.id
  | .authority (.checkCredential p _ _) =>
    match w.bound.find? fun b => b.1 == p.ref with
    | some (_, binding) =>
      if (w.apiKeys.keys.get binding.apiKeyId).isSome then [binding.apiKeyId] else []
    | none => []
  | _ => []

/-- The audit event that a call has lost. -/
def AppOp.loses : (op : AppOp τ) → Except JsError (op.Out τ) → List (ApiKeyAuditEvent τ)
  | .audit (.apiKey event), .error _ => [event]
  | _, _ => []

/-- One call of the process. A record that was returned once is not missed again. -/
def LocalProcess.exec [Timestamp τ] (op : AppOp τ) (c : LocalChoice) (s : LocalProcess τ) :
    Option (Except JsError (op.Out τ) × LocalProcess τ) :=
  if op.readsKeys then
    if c.keys.any fun id => s.returned.contains id then none
    else
      (op.exec .proceed (c.view s.world)).map fun answer =>
        (answer.1, { s with returned := op.returns (c.view s.world) ++ s.returned })
  else
    let choice := if op.writesKeys then .proceed else c.choice
    (op.exec choice s.world).map fun answer =>
      (answer.1, { s with world := answer.2, lost := s.lost ++ op.loses answer.1 })

/-- Nobody else writes; time passes. -/
def localProcess (τ : Type) [Timestamp τ] : Setting (services τ) (LocalProcess τ) where
  answers op s res s' := ∃ c, LocalProcess.exec op c s = some (res, s')
  between s s' := ∃ t, Timestamp.getTime s.world.clock ≤ Timestamp.getTime t ∧
    s' = { s with world := { s.world with clock := t } }

namespace LocalProcess

/-- `locallyCreatedKeys` of a service object. -/
def copies (s : LocalProcess τ) (object : Nat) : List (String × ApiKey τ) :=
  (s.world.keyMemory object).locallyCreatedKeys

/-- What is stored under an id. Nobody else writes, so it is what the process has committed
last. -/
def committed (s : LocalProcess τ) (id : String) : Option (ApiKey τ) := s.world.apiKeys.keys.get id

/-- The object has a copy of the key. -/
def Tracked (s : LocalProcess τ) (object : Nat) (id : String) : Prop :=
  ∃ copy, (id, copy) ∈ s.copies object

/-- Every record is stored under its own id. -/
def Keyed (s : LocalProcess τ) : Prop := ∀ id key, s.committed id = some key → key.id = id

/-- This key was read: it is what is stored, and will not be missed. -/
structure Read (s : LocalProcess τ) (key : ApiKey τ) : Prop where
  current : s.committed key.id = some key
  returned : key.id ∈ s.returned

end LocalProcess

/-! ## What a call leaves alone -/

/-- Nothing was written since: the keys are the same, copies at most forgotten. -/
structure QuietStep [Timestamp τ] (object : Nat) (s s' : LocalProcess τ) : Prop where
  apiKeys : s'.world.apiKeys = s.world.apiKeys
  clock : Timestamp.getTime s.world.clock ≤ Timestamp.getTime s'.world.clock
  copies : ∀ entry ∈ s'.copies object, entry ∈ s.copies object
  returned : ∀ id ∈ s.returned, id ∈ s'.returned
  stored : ∀ id ∈ s'.returned, id ∈ s.returned ∨ (s.committed id).isSome
  lost : ∀ event ∈ s.lost, event ∈ s'.lost
  verified : ∀ p ∈ s'.world.verified, p ∈ s.world.verified ∨ p.principalId ≠ ""

section quiet

variable [Timestamp τ] {object : Nat} {s s' s'' : LocalProcess τ}

theorem QuietStep.refl (s : LocalProcess τ) : QuietStep object s s where
  apiKeys := rfl
  clock := le_refl _
  copies _ h := h
  returned _ h := h
  stored _ h := .inl h
  lost _ h := h
  verified _ h := .inl h

theorem QuietStep.committed (h : QuietStep object s s') (id : String) :
    s'.committed id = s.committed id := by
  unfold LocalProcess.committed
  rw [h.apiKeys]

theorem QuietStep.trans (h : QuietStep object s s') (h' : QuietStep object s' s'') :
    QuietStep object s s'' where
  apiKeys := h'.apiKeys.trans h.apiKeys
  clock := h.clock.trans h'.clock
  copies entry hentry := h.copies entry (h'.copies entry hentry)
  returned id hid := h'.returned id (h.returned id hid)
  stored id hid := by
    rcases h'.stored id hid with hid | hsome
    · exact h.stored id hid
    · rw [h.committed] at hsome
      exact .inr hsome
  lost event hevent := h'.lost event (h.lost event hevent)
  verified p hp := by
    rcases h'.verified p hp with hp | hp
    · exact h.verified p hp
    · exact .inr hp

theorem QuietStep.keyed (h : QuietStep object s s') (hkeyed : s.Keyed) : s'.Keyed := by
  intro id key hkey
  rw [h.committed] at hkey
  exact hkeyed id key hkey

theorem QuietStep.read (h : QuietStep object s s') {key : ApiKey τ} (hread : s.Read key) :
    s'.Read key where
  current := by
    rw [h.committed]
    exact hread.current
  returned := h.returned _ hread.returned

/-- Time passes. -/
theorem quietStep_between (object : Nat) (h : (localProcess τ).between s s') :
    QuietStep object s s' := by
  obtain ⟨t, ht, rfl⟩ := h
  exact { QuietStep.refl s with clock := ht }

end quiet

/-- A record that a read does not miss is the one that is stored. -/
theorem LocalChoice.visible_get (c : LocalChoice) (db : ApiKeyTables τ) (id : String) :
    (c.visible db).keys.get id = if id ∈ c.keys then none else db.keys.get id := by
  show (c.keys.foldl Table.erase db.keys).get id = _
  generalize db.keys = keys
  induction c.keys generalizing keys with
  | nil => rw [if_neg List.not_mem_nil]; rfl
  | cons hidden rest ih =>
    rw [List.foldl_cons, ih, Table.get_erase]
    by_cases hid : id = hidden
    · simp [hid]
    · simp [hid]

theorem LocalChoice.visible_stored {c : LocalChoice} {db : ApiKeyTables τ} {id : String}
    {key : ApiKey τ} (h : (c.visible db).keys.get id = some key) : db.keys.get id = some key := by
  rw [c.visible_get] at h
  by_cases hid : id ∈ c.keys
  · rw [if_pos hid] at h
    cases h
  · rwa [if_neg hid] at h

/-- What a read returns is stored. -/
theorem returns_stored {s : LocalProcess τ} (hkeyed : s.Keyed) {c : LocalChoice} {op : AppOp τ}
    {id : String} (h : id ∈ op.returns (c.view s.world)) :
    (s.committed id).isSome := by
  have hvisible : ∀ i, ((c.visible s.world.apiKeys).keys.get i).isSome → (s.committed i).isSome := by
    intro i hi
    obtain ⟨key, hkey⟩ := Option.isSome_iff_exists.mp hi
    have hstored := LocalChoice.visible_stored hkey
    unfold LocalProcess.committed
    rw [hstored]
    rfl
  unfold AppOp.returns at h
  split at h
  · split at h
    · next hsome =>
      rw [List.mem_singleton.mp h]
      exact hvisible _ hsome
    · cases h
  · obtain ⟨key, hkey, rfl⟩ := List.mem_map.mp h
    obtain ⟨⟨i, hget⟩, -⟩ := Table.mem_find.mp hkey
    have hstored := LocalChoice.visible_stored hget
    have hid := hkeyed i key hstored
    rw [hid]
    unfold LocalProcess.committed
    rw [hstored]
    rfl
  · split at h
    · split at h
      · next hsome =>
        rw [List.mem_singleton.mp h]
        exact hvisible _ hsome
      · cases h
    · cases h
  · cases h

/-- The call neither writes a key nor renews a copy, and names whom it brands. -/
def AppOp.keepsCopies : AppOp τ → Bool
  | .authority (.keyMemory _ (.rememberCreated _)) | .authority (.keyMemory _ (.rememberLocal _)) =>
    false
  | .authority (.mint claims _) => claims.principalId != ""
  | .authority _ | .audit (.apiKey _) => true
  | .apiKeys op => !(AppOp.apiKeys op).writesKeys
  | _ => false

def copyQuietCalls (τ : Type) : Set (AppOp τ) := {op | op.keepsCopies = true}

theorem gateway_copyQuiet : gatewayCalls ⊆ copyQuietCalls τ := by
  rintro op ⟨o, rfl, hidentifies⟩
  cases o <;> first | rfl | cases hidentifies

/-- A use of the hints that remembers no key adds no copy. -/
theorem ApiKeyMemoryOp.exec_copies {memory : ApiKeyMemory τ} {op : ApiKeyMemoryOp τ}
    (hcreated : ∀ key, op ≠ .rememberCreated key) (hlocal : ∀ key, op ≠ .rememberLocal key) :
    ∀ entry ∈ (op.exec memory).2.locallyCreatedKeys, entry ∈ memory.locallyCreatedKeys := by
  intro entry hentry
  obtain ⟨prefixes, copies⟩ := memory
  cases op with
  | knownId | localKey | rememberPrefix => exact hentry
  | forgetLocal id => exact List.mem_of_mem_filter hentry
  | rememberCreated key => exact absurd rfl (hcreated key)
  | rememberLocal key => exact absurd rfl (hlocal key)

section quiet

variable [Timestamp τ] {object : Nat} {s s' s'' : LocalProcess τ}

/-- The lookup hints and the brand, after a call of the authority group. -/
theorem AuthorityOp.exec_hints (object : Nat) {o : AuthorityOp τ} {choice : Choice} {w w' : World τ}
    {res : Except JsError (o.Out τ)} (hquiet : (AppOp.authority o).keepsCopies = true)
    (h : o.exec choice w = some (res, w')) :
    (∀ entry ∈ (w'.keyMemory object).locallyCreatedKeys,
      entry ∈ (w.keyMemory object).locallyCreatedKeys) ∧
      ∀ p ∈ w'.verified, p ∈ w.verified ∨ p.principalId ≠ "" := by
  have hstored : ∀ {β : Type} {r : Except JsError β × World τ} {res : Except JsError β},
      r.2.keyMemory = w.keyMemory → r.2.verified = w.verified → stored choice w r = some (res, w') →
      w'.keyMemory = w.keyMemory ∧ w'.verified = w.verified := by
    intro β r res hmemory hverified hs
    rcases stored_cases hs with ⟨-, rfl⟩ | ⟨_, -, rfl | rfl⟩
    · exact ⟨hmemory, hverified⟩
    · exact ⟨hmemory, hverified⟩
    · exact ⟨rfl, rfl⟩
  have hdone : w'.keyMemory = w.keyMemory ∧ w'.verified = w.verified →
      (∀ entry ∈ (w'.keyMemory object).locallyCreatedKeys,
        entry ∈ (w.keyMemory object).locallyCreatedKeys) ∧
        ∀ p ∈ w'.verified, p ∈ w.verified ∨ p.principalId ≠ "" := by
    rintro ⟨hmemory, hverified⟩
    rw [hmemory, hverified]
    exact ⟨fun _ hentry => hentry, fun _ hp => .inl hp⟩
  cases o with
  | now | isVerified | hasBinding | isIssued | issue | consume | pushRef | resolvedRefs
  | bindCredential =>
    apply hdone
    rw [(computed_ok h).2]
    exact ⟨rfl, rfl⟩
  | mint claims by_ =>
    rw [(computed_ok h).2]
    refine ⟨fun _ hentry => hentry, fun p hp => ?_⟩
    rcases List.mem_cons.mp hp with rfl | hp
    · exact .inr (bne_iff_ne.mp hquiet)
    · exact .inl hp
  | keyMemory service op =>
    rw [(computed_ok h).2]
    refine ⟨fun entry hentry => ?_, fun _ hp => .inl hp⟩
    simp only at hentry
    by_cases hobject : object = service
    · rw [if_pos hobject] at hentry
      rw [hobject]
      refine ApiKeyMemoryOp.exec_copies ?_ ?_ entry hentry
      · rintro key rfl
        cases hquiet
      · rintro key rfl
        cases hquiet
    · rwa [if_neg hobject] at hentry
  | uuid =>
    apply hdone
    rw [(AuthorityOp.exec_uuid h).1]
    exact ⟨rfl, rfl⟩
  | randomBytes =>
    apply hdone
    rw [AuthorityOp.exec_randomBytes h]
    exact ⟨rfl, rfl⟩
  | authorize =>
    simp only [AuthorityOp.exec] at h
    split at h
    · cases h
      exact hdone ⟨rfl, rfl⟩
    · cases h
  | checkCredential p capability resource =>
    simp only [AuthorityOp.exec] at h
    split at h
    · exact hdone (hstored rfl rfl h)
    · apply hdone
      rw [(computed_ok h).2]
      exact ⟨rfl, rfl⟩
  | recordEvidence row =>
    simp only [AuthorityOp.exec] at h
    split at h
    · apply hdone
      refine hstored ?_ ?_ h
      · split <;> rfl
      · split <;> rfl
    · obtain ⟨r, hr, heq⟩ := Option.map_eq_some_iff.mp h
      cases heq
      apply hdone
      rw [(computed_ok hr).2]
      exact ⟨rfl, rfl⟩
  | getEvidence | findByDecision | putEvidence | listKeyAudit => exact hdone (hstored rfl rfl h)

/-- A quiet call that is no read leaves the keys alone, and the rest as `QuietStep` says. -/
theorem quietStep_exec {op : AppOp τ} {choice : Choice} {w' : World τ}
    {res : Except JsError (op.Out τ)} (hquiet : op.keepsCopies = true) (hread : op.readsKeys = false)
    (h : op.exec choice s.world = some (res, w')) (events : List (ApiKeyAuditEvent τ)) :
    QuietStep object s { s with world := w', lost := s.lost ++ events } := by
  have hlost : ∀ event ∈ s.lost, event ∈ s.lost ++ events :=
    fun _ hevent => List.mem_append_left _ hevent
  cases op with
  | authority o =>
    have hstores := AuthorityOp.exec_stores h
    have hhints := AuthorityOp.exec_hints object hquiet h
    exact {
      apiKeys := hstores.apiKeys
      clock := by rw [← hstores.clock]
      copies := hhints.1
      returned := fun _ hid => hid
      stored := fun _ hid => .inl hid
      lost := hlost
      verified := hhints.2 }
  | audit o =>
    have hsame : w'.apiKeys = s.world.apiKeys ∧ w'.clock = s.world.clock ∧
        w'.keyMemory = s.world.keyMemory ∧ w'.verified = s.world.verified := by
      cases o <;> rcases stored_cases h with ⟨-, rfl⟩ | ⟨_, -, rfl | rfl⟩ <;>
        exact ⟨rfl, rfl, rfl, rfl⟩
    obtain ⟨hkeys, hclock, hmemory, hverified⟩ := hsame
    exact {
      apiKeys := hkeys
      clock := by rw [← hclock]
      copies := fun entry hentry => by
        unfold LocalProcess.copies at hentry ⊢
        rwa [hmemory] at hentry
      returned := fun _ hid => hid
      stored := fun _ hid => .inl hid
      lost := hlost
      verified := fun p hp => .inl (hverified ▸ hp) }
  | apiKeys o =>
    cases o with
    | getKey | getPrefix | listKeys => cases hread
    | create | rotate | updateIfVersion => cases hquiet
  | jobs | schedules | webhooks | notifications | configuration | secretMetadata | commit | host =>
    cases hquiet

/-- A read. -/
theorem LocalProcess.exec_read {op : AppOp τ} {c : LocalChoice}
    {res : Except JsError (op.Out τ)} (hread : op.readsKeys = true)
    (h : LocalProcess.exec op c s = some (res, s')) :
    (∀ id ∈ c.keys, id ∉ s.returned) ∧ ∃ w',
      op.exec .proceed (c.view s.world) = some (res, w') ∧
      s' = { s with returned := op.returns (c.view s.world) ++ s.returned } := by
  unfold LocalProcess.exec at h
  rw [hread, if_pos rfl] at h
  split at h
  · cases h
  · next hmissed =>
    obtain ⟨answer, hanswer, heq⟩ := Option.map_eq_some_iff.mp h
    cases heq
    refine ⟨fun id hid hreturned => hmissed ?_, answer.2, hanswer, rfl⟩
    exact List.any_eq_true.mpr ⟨id, hid, List.contains_iff_mem.mpr hreturned⟩

/-- A call that is no read. -/
theorem LocalProcess.exec_other {op : AppOp τ} {c : LocalChoice}
    {res : Except JsError (op.Out τ)} (hread : op.readsKeys = false)
    (h : LocalProcess.exec op c s = some (res, s')) :
    ∃ w', op.exec (if op.writesKeys then .proceed else c.choice) s.world = some (res, w') ∧
      s' = { s with world := w', lost := s.lost ++ op.loses res } := by
  unfold LocalProcess.exec at h
  rw [hread, if_neg Bool.false_ne_true] at h
  obtain ⟨answer, hanswer, heq⟩ := Option.map_eq_some_iff.mp h
  cases heq
  exact ⟨answer.2, hanswer, rfl⟩

/-- **A quiet call is a quiet step.** -/
theorem quietStep_answers {op : AppOp τ} {res : Except JsError (op.Out τ)}
    (hquiet : op.keepsCopies = true) (hkeyed : s.Keyed)
    (h : (localProcess τ).answers op s res s') : QuietStep object s s' := by
  obtain ⟨c, hexec⟩ := h
  cases hread : op.readsKeys with
  | true =>
    obtain ⟨-, w', -, rfl⟩ := LocalProcess.exec_read hread hexec
    exact { QuietStep.refl s with
      returned := fun _ hid => List.mem_append_right _ hid
      stored := fun id hid => by
        rcases List.mem_append.mp hid with hid | hid
        · exact .inr (returns_stored hkeyed hid)
        · exact .inl hid }
  | false =>
    obtain ⟨w', hanswer, rfl⟩ := LocalProcess.exec_other hread hexec
    exact quietStep_exec hquiet hread hanswer _

/-- Quiet tasks take quiet steps. -/
theorem ensures_copyQuiet (object : Nat) {α : Type} {t : Svc τ α}
    (huses : Task.Uses (S := services τ) (copyQuietCalls τ) t)
    (hkeyed : s.Keyed) : t.Ensures (localProcess τ) s fun _ s' => QuietStep object s s' := by
  apply Task.Ensures.of_uses (I := fun s' => QuietStep object s s') ?_ ?_ huses (QuietStep.refl s)
  · intro op hop s₁ res s₂ h₁ hanswers
    exact h₁.trans (quietStep_answers hop (h₁.keyed hkeyed) hanswers)
  · intro s₁ s₂ h₁ hbetween
    exact h₁.trans (quietStep_between _ hbetween)

end quiet

/-! ## Copies in step -/

/-- Every copy is the committed version, except that it may be behind where reads no longer
miss the key, and the key is one of `behind` or, where that is an excuse, of a lost event. -/
structure InStep (object : Nat) (tracked behind : String → Prop) (excused : Prop)
    (s : LocalProcess τ) : Prop where
  keyed : s.Keyed
  stored : ∀ id ∈ s.returned, (s.committed id).isSome
  principals : ∀ p ∈ s.world.verified, p.principalId ≠ ""
  tracked : ∀ entry ∈ s.copies object, tracked entry.1
  copies : ∀ entry ∈ s.copies object, s.committed entry.1 = some entry.2 ∨ entry.1 ∈ s.returned ∧
    (behind entry.1 ∨ excused ∧ ∃ event ∈ s.lost, event.credentialId = entry.1)

section operations

variable [Timestamp τ] {service : ApiKeyService} {tracked behind : String → Prop} {excused : Prop}
  {s : LocalProcess τ}

omit [Timestamp τ] in
theorem InStep.weaken {behind' : String → Prop} {object : Nat}
    (h : InStep object tracked behind excused s)
    (hbehind : ∀ id, behind id → behind' id ∨ excused ∧ ∃ event ∈ s.lost, event.credentialId = id) :
    InStep object tracked behind' excused s where
  keyed := h.keyed
  stored := h.stored
  principals := h.principals
  tracked := h.tracked
  copies entry hentry := by
    rcases h.copies entry hentry with hcurrent | ⟨hreturned, hid | hlost⟩
    · exact .inl hcurrent
    · exact .inr ⟨hreturned, hbehind _ hid⟩
    · exact .inr ⟨hreturned, .inr hlost⟩

theorem InStep.quiet {object : Nat} {s' : LocalProcess τ} (h : InStep object tracked behind excused s)
    (hq : QuietStep object s s') : InStep object tracked behind excused s' where
  keyed := hq.keyed h.keyed
  stored id hid := by
    rw [hq.committed]
    rcases hq.stored id hid with hid | hsome
    · exact h.stored id hid
    · exact hsome
  principals p hp := by
    rcases hq.verified p hp with hp | hp
    · exact h.principals p hp
    · exact hp
  tracked entry hentry := h.tracked entry (hq.copies entry hentry)
  copies entry hentry := by
    rw [hq.committed]
    rcases h.copies entry (hq.copies entry hentry) with hcurrent | ⟨hreturned, hid | ⟨hexcused, hlost⟩⟩
    · exact .inl hcurrent
    · exact .inr ⟨hq.returned _ hreturned, .inl hid⟩
    · obtain ⟨event, hevent, hid⟩ := hlost
      exact .inr ⟨hq.returned _ hreturned, .inr ⟨hexcused, event, hq.lost event hevent, hid⟩⟩

/-! ### Reading -/

/-- One read: the record that is stored, from then on not to be missed; or nothing. -/
theorem ensures_getKey {object : Nat} (h : InStep object tracked behind excused s) (id : String) :
    (ApiKeyOp.getKey id : ApiKeyOp τ).perform.Ensures (localProcess τ) s fun r s' =>
      QuietStep object s s' ∧ ∃ found, r = .ok found ∧
        (∀ key, found = some key → key.id = id ∧ s'.Read key) ∧
        (found = none → id ∉ s'.returned) := by
  refine Task.ensures_perform ?_
  intro s₁ res s₂ hbetween hanswers
  have hfirst : QuietStep object s s₁ := quietStep_between _ hbetween
  have h₁ := h.quiet hfirst
  refine ⟨hfirst.trans (quietStep_answers rfl h₁.keyed hanswers), ?_⟩
  obtain ⟨c, hexec⟩ := hanswers
  obtain ⟨hmissed, w', hanswer, rfl⟩ := LocalProcess.exec_read rfl hexec
  cases hanswer
  refine ⟨_, rfl, ?_, ?_⟩
  · intro key hfound
    have hcurrent : s₁.committed id = some key := LocalChoice.visible_stored hfound
    have hid := h₁.keyed id key hcurrent
    have hvisible : ((c.view s₁.world).apiKeys.keys.get id).isSome = true := by
      rw [hfound]
      rfl
    refine ⟨hid, ?_, ?_⟩
    · rw [hid]
      exact hcurrent
    · show key.id ∈ AppOp.returns _ _ ++ s₁.returned
      rw [AppOp.returns, if_pos hvisible, hid]
      exact List.mem_append_left _ (List.mem_singleton.mpr rfl)
  · intro hfound hreturned
    have hvisible : (c.view s₁.world).apiKeys.keys.get id = none := hfound
    -- what was returned before is stored, and not missed
    have hbefore : id ∈ s₁.returned := by
      rcases List.mem_append.mp hreturned with hnew | hold
      · rw [AppOp.returns, hvisible] at hnew
        cases hnew
      · exact hold
    have hstored := h₁.stored id hbefore
    have hfoundAgain : id ∉ c.keys := fun hmem => hmissed id hmem hbefore
    have hnone : s₁.committed id = none := by
      have hget := c.visible_get s₁.world.apiKeys id
      rw [if_neg hfoundAgain] at hget
      exact hget.symm.trans hvisible
    rw [hnone] at hstored
    cases hstored

/-- The key that the service owns was read. -/
theorem ensures_ownKey (h : InStep service.object tracked behind excused s) (tenantId id : String)
    (allowLegacy : Bool) :
    (service.ownKey (τ := τ) tenantId id allowLegacy).Ensures (localProcess τ) s fun r s' =>
      QuietStep service.object s s' ∧ ∀ key, r = .ok (some key) → s'.Read key := by
  unfold ApiKeyService.ownKey
  refine Task.Ensures.bind (ensures_getKey h id) ?_ (fun e s' hread => ⟨hread.1, fun _ hr => nomatch hr⟩)
  rintro found s₁ ⟨hquiet, found', hfound, hread, -⟩
  obtain rfl := Except.ok.inj hfound
  refine ⟨hquiet, fun key hkey => ?_⟩
  obtain ⟨hsome, -⟩ := Option.filter_eq_some_iff.mp (Except.ok.inj hkey)
  exact (hread key hsome).2

/-- A copy that is used is of a key that reads still miss, and is the committed version. -/
theorem ensures_localKey (h : InStep service.object tracked behind excused s) (id : String)
    (hmissed : id ∉ s.returned) :
    (service.memory (.localKey id) : Svc τ (Option (ApiKey τ))).Ensures (localProcess τ) s
      fun r s' => QuietStep service.object s s' ∧
        ∀ key, r = .ok (some key) → s'.committed key.id = some key := by
  refine Task.ensures_perform ?_
  intro s₁ res s₂ hbetween hanswers
  have hfirst : QuietStep service.object s s₁ := quietStep_between _ hbetween
  have h₁ := h.quiet hfirst
  have hsecond : QuietStep service.object s₁ s₂ := quietStep_answers rfl h₁.keyed hanswers
  refine ⟨hfirst.trans hsecond, fun key hkey => ?_⟩
  have hreturned : s₁.returned = s.returned := by
    obtain ⟨t, -, rfl⟩ := hbetween
    rfl
  obtain ⟨c, hexec⟩ := hanswers
  obtain ⟨w', hanswer, rfl⟩ := LocalProcess.exec_other rfl hexec
  obtain ⟨hok, -⟩ := computed_ok hanswer
  have hlookup : (s₁.copies service.object).lookup id = some key := by
    rw [hok] at hkey
    exact Except.ok.inj hkey
  have hentry : (id, key) ∈ s₁.copies service.object := by
    obtain ⟨before, after, hcopies, -⟩ := List.lookup_eq_some_iff.mp hlookup
    rw [hcopies]
    exact List.mem_append_right _ List.mem_cons_self
  rw [hsecond.committed]
  rcases h₁.copies _ hentry with hcurrent | ⟨hmem, -⟩
  · rw [h₁.keyed id key hcurrent]
    exact hcurrent
  · rw [hreturned] at hmem
    exact absurd hmem hmissed

omit [Timestamp τ] in
/-- A use of the hints that renews no copy. -/
theorem ApiKeyService.uses_memory_quiet (service : ApiKeyService) {op : ApiKeyMemoryOp τ}
    (h : (AppOp.authority (.keyMemory service.object op)).keepsCopies = true) :
    Task.Uses (S := services τ) (copyQuietCalls τ) (service.memory op) := Task.uses_perform h

/-- The record behind a prefix that the object knows. -/
theorem ensures_findKnown (h : InStep service.object tracked behind excused s) (knownId : String) :
    (service.findKnown knownId : Svc τ (Option (ApiKey τ))).Ensures (localProcess τ) s fun r s' =>
      QuietStep service.object s s' ∧
        ∀ key, r = .ok (some key) → s'.committed key.id = some key := by
  unfold ApiKeyService.findKnown
  refine Task.Ensures.bind (ensures_getKey h knownId) ?_
    (fun e s' hread => ⟨hread.1, fun _ hr => nomatch hr⟩)
  rintro stored s₁ ⟨hquiet, found, hfound, hread, hmissed⟩
  obtain rfl := Except.ok.inj hfound
  have h₁ := h.quiet hquiet
  cases stored with
  | some key =>
    refine Task.Ensures.bind (ensures_copyQuiet service.object
      (service.uses_memory_quiet rfl) h₁.keyed) ?_
      (fun e s' hforget => ⟨hquiet.trans hforget, fun _ hr => nomatch hr⟩)
    intro _ s₂ hforget
    refine ⟨hquiet.trans hforget, fun key' hkey => ?_⟩
    obtain rfl : key = key' := Option.some.inj (Except.ok.inj hkey)
    exact (hforget.read (hread key rfl).2).current
  | none =>
    dsimp only
    split
    · refine (ensures_localKey h₁ knownId (hmissed rfl)).mono fun r s₂ hlocal => ?_
      exact ⟨hquiet.trans hlocal.1, hlocal.2⟩
    · exact ⟨hquiet, fun key hkey => nomatch Except.ok.inj hkey⟩

/-- The record that the index of the store leads to. -/
theorem ensures_findIndexed (h : InStep service.object tracked behind excused s)
    (keyPrefix : String) :
    (service.findIndexed keyPrefix : Svc τ (Option (ApiKey τ))).Ensures (localProcess τ) s
      fun r s' => QuietStep service.object s s' ∧
        ∀ key, r = .ok (some key) → s'.committed key.id = some key := by
  unfold ApiKeyService.findIndexed
  refine Task.Ensures.bind (Q := fun r s' => QuietStep service.object s s' ∧
    ∀ key, r = .ok (some key) → s'.Read key) ?_ ?_ (fun e s' hread => ⟨hread.1, fun _ hr => nomatch hr⟩)
  · unfold FeltDbApiKeyStore.findByPrefix
    refine Task.Ensures.bind (ensures_copyQuiet service.object (Task.uses_perform rfl) h.keyed)
      ?_ (fun e s' hpointer => ⟨hpointer, fun _ hr => nomatch hr⟩)
    intro pointer s₁ hpointer
    cases pointer with
    | none => exact ⟨hpointer, fun _ hr => nomatch Except.ok.inj hr⟩
    | some pointer =>
      refine (ensures_getKey (h.quiet hpointer) pointer.apiKeyId).mono ?_
      rintro r s₂ ⟨hquiet, found, rfl, hread, -⟩
      exact ⟨hpointer.trans hquiet, fun key hkey => (hread key (Except.ok.inj hkey)).2⟩
  · rintro indexed s₁ ⟨hquiet, hread⟩
    cases indexed with
    | none => exact ⟨hquiet, fun _ hr => nomatch Except.ok.inj hr⟩
    | some key =>
      refine Task.Ensures.bind (ensures_copyQuiet service.object
        (service.uses_memory_quiet rfl) (h.quiet hquiet).keyed) ?_
        (fun e s' hremember => ⟨hquiet.trans hremember, fun _ hr => nomatch hr⟩)
      intro _ s₂ hremember
      refine ⟨hquiet.trans hremember, fun key' hkey => ?_⟩
      obtain rfl : key = key' := Option.some.inj (Except.ok.inj hkey)
      exact (hremember.read (hread key rfl)).current

/-- **What is found behind a prefix is what was committed last**, whether the store or a
copy answers. -/
theorem ensures_findApiKeyByPrefix (h : InStep service.object tracked behind excused s)
    (keyPrefix : String) :
    (service.findApiKeyByPrefix keyPrefix : Svc τ (Option (ApiKey τ))).Ensures (localProcess τ) s
      fun r s' => QuietStep service.object s s' ∧
        ∀ key, r = .ok (some key) → s'.committed key.id = some key := by
  unfold ApiKeyService.findApiKeyByPrefix
  refine Task.Ensures.bind (ensures_copyQuiet service.object
    (service.uses_memory_quiet rfl) h.keyed) ?_
    (fun e s' hknown => ⟨hknown, fun _ hr => nomatch hr⟩)
  intro knownId s₁ hknown
  have h₁ := h.quiet hknown
  cases keepPresent knownId with
  | none =>
    refine (ensures_findIndexed h₁ keyPrefix).mono fun r s₂ hfound => ?_
    exact ⟨hknown.trans hfound.1, hfound.2⟩
  | some knownId =>
    refine Task.Ensures.bind (ensures_findKnown h₁ knownId) ?_
      (fun e s' hfound => ⟨hknown.trans hfound.1, fun _ hr => nomatch hr⟩)
    rintro known s₂ ⟨hquiet, hcurrent⟩
    cases known with
    | none =>
      refine (ensures_findIndexed (h₁.quiet hquiet) keyPrefix).mono fun r s₃ hfound => ?_
      exact ⟨(hknown.trans hquiet).trans hfound.1, hfound.2⟩
    | some key => exact ⟨hknown.trans hquiet, fun key' hkey => by
        obtain rfl : key = key' := Option.some.inj (Except.ok.inj hkey)
        exact hcurrent key rfl⟩

/-! ### Writing -/

omit [Timestamp τ] in
/-- A key that reads no longer miss is written: its copy is behind. -/
theorem InStep.put {object : Nat} (h : InStep object tracked behind excused s)
    {db : ApiKeyTables τ} {id : String} {key : ApiKey τ} (hreturned : id ∈ s.returned)
    (hkey : key.id = id)
    (hput : ∀ i, db.keys.get i = if i = id then some key else s.committed i) :
    InStep object tracked (fun i => behind i ∨ i = id) excused
      { s with world := { s.world with apiKeys := db } } where
  keyed i k hget := by
    have hget' := (hput i).symm.trans hget
    by_cases hi : i = id
    · rw [if_pos hi] at hget'
      rw [hi, ← hkey, Option.some.inj hget']
    · rw [if_neg hi] at hget'
      exact h.keyed i k hget'
  stored i hi := by
    show (db.keys.get i).isSome
    rw [hput]
    split
    · rfl
    · exact h.stored i hi
  principals := h.principals
  tracked := h.tracked
  copies entry hentry := by
    show db.keys.get entry.1 = _ ∨ _
    rw [hput]
    by_cases hi : entry.1 = id
    · rw [hi]
      exact .inr ⟨hreturned, .inl (.inr rfl)⟩
    · rw [if_neg hi]
      rcases h.copies entry hentry with hcurrent | ⟨hmem, hbehind | hlost⟩
      · exact .inl hcurrent
      · exact .inr ⟨hmem, .inl (.inl hbehind)⟩
      · exact .inr ⟨hmem, .inr hlost⟩

omit [Timestamp τ] in
/-- A key is stored under an id nothing was stored under. -/
theorem InStep.insert {object : Nat} (h : InStep object tracked behind excused s)
    {db : ApiKeyTables τ} {key : ApiKey τ} (habsent : s.committed key.id = none)
    (hput : ∀ i, db.keys.get i = if i = key.id then some key else s.committed i) :
    InStep object tracked behind excused { s with world := { s.world with apiKeys := db } } where
  keyed i k hget := by
    have hget' := (hput i).symm.trans hget
    by_cases hi : i = key.id
    · rw [if_pos hi] at hget'
      rw [hi, Option.some.inj hget']
    · rw [if_neg hi] at hget'
      exact h.keyed i k hget'
  stored i hi := by
    show (db.keys.get i).isSome
    rw [hput]
    split
    · rfl
    · exact h.stored i hi
  principals := h.principals
  tracked := h.tracked
  copies entry hentry := by
    show db.keys.get entry.1 = _ ∨ _
    rw [hput]
    have hother : entry.1 ≠ key.id := by
      intro hi
      rw [← hi] at habsent
      rcases h.copies entry hentry with hcurrent | ⟨hmem, -⟩
      · rw [habsent] at hcurrent
        cases hcurrent
      · have hstored := h.stored _ hmem
        rw [habsent] at hstored
        cases hstored
    rw [if_neg hother]
    exact h.copies entry hentry

omit [Timestamp τ] in
/-- What a conditional write does under the version that is stored. -/
theorem ApiKeyOp.exec_updateIfVersion {db : ApiKeyTables τ} {id : String} {stored : ApiKey τ}
    (hget : db.keys.get id = some stored) (sent : ApiKey τ) (cleared : List ApiKeyField) :
    (ApiKeyOp.updateIfVersion id stored.version sent cleared).exec db =
      (.ok (some { mergeKey sent cleared stored with version := stored.version + 1 }),
        { db with keys :=
          db.keys.put id { mergeKey sent cleared stored with version := stored.version + 1 } }) := by
  have hupdate : db.keys.updateIfVersion id stored.version (mergeKey sent cleared) =
      (some { mergeKey sent cleared stored with version := stored.version + 1 },
        db.keys.put id { mergeKey sent cleared stored with version := stored.version + 1 }) := by
    unfold Table.updateIfVersion
    rw [hget]
    exact if_pos rfl
  unfold ApiKeyOp.exec
  simp only [hupdate]

/-- A write of the key store goes through. -/
theorem LocalProcess.exec_write {s' : LocalProcess τ} {op : ApiKeyOp τ} {c : LocalChoice}
    {res : Except JsError (op.Out τ)} (hwrites : (AppOp.apiKeys op).writesKeys = true)
    (h : LocalProcess.exec (.apiKeys op) c s = some (res, s')) :
    res = (op.exec s.world.apiKeys).1 ∧
      s' = { s with world := { s.world with apiKeys := (op.exec s.world.apiKeys).2 } } := by
  have hread : (AppOp.apiKeys op).readsKeys = false := by
    cases op <;> first | rfl | cases hwrites
  obtain ⟨w', hanswer, rfl⟩ := LocalProcess.exec_other hread h
  rw [hwrites, if_pos rfl] at hanswer
  have hlost : s.lost ++ AppOp.loses (.apiKeys op) res = s.lost := List.append_nil _
  rw [hlost]
  have hpair := Option.some.inj hanswer
  have hres : (op.exec s.world.apiKeys).1 = res := congrArg Prod.fst hpair
  have hworld : { s.world with apiKeys := (op.exec s.world.apiKeys).2 } = w' :=
    congrArg Prod.snd hpair
  exact ⟨hres.symm, by rw [hworld]⟩

/-- A whole record is sent over the one that was committed last. -/
theorem ensures_overwrite (h : InStep service.object tracked behind excused s)
    {current next : ApiKey τ} {write : ApiKey τ → ApiKey τ × List ApiKeyField}
    (hcurrent : s.committed current.id = some current)
    (hmerge : mergeKey (write current).1 (write current).2 current = next)
    (hid : next.id = current.id) :
    (FeltDbApiKeyStore.overwrite current.id current.version write).Ensures (localProcess τ) s
      fun r s' => r = .ok none ∧ QuietStep service.object s s' ∨
        ∃ result : ApiKey τ, r = .ok (some result) ∧
          result = { next with version := current.version + 1 } ∧
          InStep service.object tracked (fun i => behind i ∨ i = current.id) excused s' ∧
          s'.committed current.id = some result := by
  unfold FeltDbApiKeyStore.overwrite
  refine Task.Ensures.bind (Q := fun r s' => ∃ found, r = .ok found ∧ QuietStep service.object s s' ∧
    ∀ key, found = some key → key.id = current.id ∧ s'.Read key) ?_ ?_ ?_
  · refine (ensures_getKey h current.id).mono ?_
    rintro r s₁ ⟨hquiet, found, hr, hread, -⟩
    exact ⟨found, hr, hquiet, hread⟩
  · rintro found s₁ ⟨found', hfound, hquiet, hread⟩
    obtain rfl := Except.ok.inj hfound
    cases found with
    | none => exact .inl ⟨rfl, hquiet⟩
    | some stored =>
      obtain ⟨hstored, hreadStored⟩ := hread stored rfl
      obtain rfl : stored = current := by
        have hsame := (hquiet.committed current.id).trans hcurrent
        rw [← hstored, hreadStored.current] at hsame
        exact Option.some.inj hsame
      refine Task.ensures_perform ?_
      intro s₂ res s₃ hbetween hanswers
      have hsecond : QuietStep service.object s₁ s₂ := quietStep_between _ hbetween
      have h₂ := h.quiet (hquiet.trans hsecond)
      obtain ⟨c, hexec⟩ := hanswers
      obtain ⟨rfl, rfl⟩ := LocalProcess.exec_write rfl hexec
      have hcommitted : s₂.world.apiKeys.keys.get stored.id = some stored :=
        (hsecond.read hreadStored).current
      rw [ApiKeyOp.exec_updateIfVersion hcommitted, hmerge]
      refine .inr ⟨_, rfl, rfl, ?_, Table.get_put_same ..⟩
      have hsameId : ({ next with version := stored.version + 1 } : ApiKey τ).id = stored.id := hid
      exact h₂.put (hsecond.read hreadStored).returned hsameId fun i => rfl
  · rintro e s' ⟨found, hfound, -⟩
    cases hfound

/-! ### Remembering -/

omit [Timestamp τ] in
/-- What is left after eviction was there before. -/
theorem mem_evictOldest {α : Type} {entries : List α} {max : Nat} {entry : α}
    (h : entry ∈ evictOldest entries max) : entry ∈ entries := List.mem_of_mem_drop h

theorem AuthorityOp.exec_keyMemory {object : Nat} {op : ApiKeyMemoryOp τ} {choice : Choice}
    {w w' : World τ} {res : Except JsError (op.Out τ)}
    (h : (AuthorityOp.keyMemory object op).exec choice w = some (res, w')) :
    res = .ok (op.exec (w.keyMemory object)).1 ∧ w' = { w with
      keyMemory := fun i =>
        if i = object then (op.exec (w.keyMemory object)).2 else w.keyMemory i } :=
  computed_ok h

/-- A use of the hints. -/
theorem ensures_memory (op : ApiKeyMemoryOp τ) :
    (service.memory op).Ensures (localProcess τ) s fun r s' =>
      r = .ok (op.exec (s.world.keyMemory service.object)).1 ∧ s'.returned = s.returned ∧
      s'.lost = s.lost ∧ s'.world.verified = s.world.verified ∧
      (∀ id, s'.committed id = s.committed id) ∧ s'.copies service.object =
        (op.exec (s.world.keyMemory service.object)).2.locallyCreatedKeys := by
  refine Task.ensures_perform ?_
  rintro s₁ res s₂ ⟨t, -, hs₁⟩ ⟨c, hexec⟩
  have hmemory : s₁.world.keyMemory = s.world.keyMemory := by
    rw [hs₁]
  obtain ⟨w', hanswer, rfl⟩ := LocalProcess.exec_other rfl hexec
  obtain ⟨rfl, rfl⟩ := AuthorityOp.exec_keyMemory hanswer
  rw [hmemory]
  refine ⟨rfl, ?_, ?_, ?_, ?_, ?_⟩
  · rw [hs₁]
  · rw [hs₁]
    exact List.append_nil _
  · rw [hs₁]
  · intro id
    rw [hs₁]
    rfl
  · exact congrArg ApiKeyMemory.locallyCreatedKeys (if_pos rfl)

/-- A copy that is tracked is renewed; no other is touched. -/
theorem ensures_rememberLocal {key : ApiKey τ}
    (h : InStep service.object tracked (fun i => behind i ∨ i = key.id) excused s)
    (hcommitted : s.committed key.id = some key) :
    (service.memory (.rememberLocal key)).Ensures (localProcess τ) s fun r s' =>
      r = .ok () ∧ InStep service.object tracked behind excused s' := by
  refine (ensures_memory (.rememberLocal key)).mono ?_
  rintro r s' ⟨hok, hreturned, hlost, hverified, hsame, hcopies⟩
  -- a copy is the renewed one, or was there before under another id
  have hentries : ∀ entry ∈ s'.copies service.object, entry.1 = key.id ∧ entry.2 = key ∧
      tracked key.id ∨ entry ∈ s.copies service.object ∧ entry.1 ≠ key.id := by
    intro entry hentry
    rw [hcopies] at hentry
    simp only [ApiKeyMemoryOp.exec] at hentry
    split at hentry
    · next htracked =>
      obtain ⟨old, hold, hid⟩ := List.any_eq_true.mp htracked
      rcases mem_setEntry hentry with rfl | hother
      · have := h.tracked old hold
        rw [eq_of_beq hid] at this
        exact .inl ⟨rfl, rfl, this⟩
      · exact .inr hother
    · next huntracked =>
      refine .inr ⟨hentry, fun hid => huntracked ?_⟩
      exact List.any_eq_true.mpr ⟨entry, hentry, beq_iff_eq.mpr hid⟩
  refine ⟨hok, ?_⟩
  constructor
  · intro id k hk
    rw [hsame] at hk
    exact h.keyed id k hk
  · intro id hid
    rw [hreturned] at hid
    rw [hsame]
    exact h.stored id hid
  · rw [hverified]
    exact h.principals
  · intro entry hentry
    rcases hentries entry hentry with ⟨hid, -, htracked⟩ | ⟨hold, -⟩
    · rw [hid]
      exact htracked
    · exact h.tracked entry hold
  · intro entry hentry
    rw [hsame, hreturned, hlost]
    rcases hentries entry hentry with ⟨hid, hkey, -⟩ | ⟨hold, hother⟩
    · rw [hid, hkey]
      exact .inl hcommitted
    · rcases h.copies entry hold with hcurrent | ⟨hmem, (hbehind | hid) | hevent⟩
      · exact .inl hcurrent
      · exact .inr ⟨hmem, .inl hbehind⟩
      · exact absurd hid hother
      · exact .inr ⟨hmem, .inr hevent⟩

/-- A key that was just created is tracked, in local mode; others may be evicted. -/
theorem ensures_rememberCreated {key : ApiKey τ}
    (h : InStep service.object tracked behind excused s) (htracked : tracked key.id)
    (hcommitted : s.committed key.id = some key) :
    (service.rememberCreated key).Ensures (localProcess τ) s fun r s' =>
      r = .ok () ∧ InStep service.object tracked behind excused s' ∧ s'.committed = s.committed := by
  unfold ApiKeyService.rememberCreated
  split
  · refine (ensures_memory (.rememberCreated key)).mono ?_
    rintro r s' ⟨hok, hreturned, hlost, hverified, hsame, hcopies⟩
    have hentries : ∀ entry ∈ s'.copies service.object, entry = (key.id, key) ∨
        entry ∈ s.copies service.object := by
      intro entry hentry
      rw [hcopies] at hentry
      simp only [ApiKeyMemoryOp.exec] at hentry
      rcases mem_setEntry (mem_evictOldest hentry) with hnew | ⟨hold, -⟩
      · exact .inl hnew
      · exact .inr hold
    refine ⟨hok, ?_, funext hsame⟩
    constructor
    · intro id k hk
      rw [hsame] at hk
      exact h.keyed id k hk
    · intro id hid
      rw [hreturned] at hid
      rw [hsame]
      exact h.stored id hid
    · rw [hverified]
      exact h.principals
    · intro entry hentry
      rcases hentries entry hentry with rfl | hold
      · exact htracked
      · exact h.tracked entry hold
    · intro entry hentry
      rw [hsame, hreturned, hlost]
      rcases hentries entry hentry with rfl | hold
      · exact .inl hcommitted
      · exact h.copies entry hold
  · exact ⟨rfl, h, rfl⟩

theorem ensures_rememberPrefix (hkeyed : s.Keyed) (keyPrefix id : String) :
    (service.memory (.rememberPrefix keyPrefix id)).Ensures (localProcess τ) s fun r s' =>
      r = .ok () ∧ QuietStep service.object s s' :=
  ensures_and (ensures_memory _ |>.mono fun _ _ h => h.1)
    (ensures_copyQuiet service.object (service.uses_memory_quiet rfl) hkeyed)

/-! ### Operations -/

/-- A quiet task, and what follows it. -/
theorem InStep.bind_quiet {α β : Type} {t : Svc τ α} {f : α → Svc τ β}
    {R : Except JsError β → LocalProcess τ → Prop}
    (h : InStep service.object tracked behind excused s)
    (huses : Task.Uses (S := services τ) (copyQuietCalls τ) t)
    (hf : ∀ a s₁, QuietStep service.object s s₁ → InStep service.object tracked behind excused s₁ →
      (f a).Ensures (localProcess τ) s₁ R)
    (herror : ∀ e s₁, QuietStep service.object s s₁ →
      InStep service.object tracked behind excused s₁ → R (.error e) s₁) :
    (t.bind f).Ensures (localProcess τ) s R :=
  Task.Ensures.bind (ensures_copyQuiet service.object huses h.keyed)
    (fun a s₁ hquiet => hf a s₁ hquiet (h.quiet hquiet))
    (fun e s₁ hquiet => herror e s₁ hquiet (h.quiet hquiet))

theorem InStep.of_quiet {α : Type} {t : Svc τ α} (h : InStep service.object tracked behind excused s)
    (huses : Task.Uses (S := services τ) (copyQuietCalls τ) t) :
    t.Ensures (localProcess τ) s fun _ s' => InStep service.object tracked behind excused s' :=
  (ensures_copyQuiet service.object huses h.keyed).mono fun _ _ hquiet => h.quiet hquiet

omit [Timestamp τ] in
theorem copyQuiet_now : Task.Uses (S := services τ) (copyQuietCalls τ) (now (τ := τ)) :=
  Task.uses_perform rfl

omit [Timestamp τ] in
theorem copyQuiet_audit (type : String) (apiKey : ApiKey τ) (principalId : String) (timestamp : τ)
    (changes : Option (List String)) (relatedCredentialId : Option String) :
    Task.Uses (S := services τ) (copyQuietCalls τ)
      (ApiKeyService.audit type apiKey principalId timestamp changes relatedCredentialId) :=
  Task.Uses.bind (Task.uses_perform rfl) fun _ => Task.uses_perform rfl

omit [Timestamp τ] in
theorem copyQuiet_recordAuthEvent (apiKey : ApiKey τ) (result : String) (timestamp : τ) :
    Task.Uses (S := services τ) (copyQuietCalls τ)
      (ApiKeyService.recordAuthEvent apiKey result timestamp) :=
  Task.Uses.bind (Task.uses_perform rfl) fun _ => Task.uses_perform rfl

theorem copyQuiet_assertWithinCaller (principal : VerifiedPrincipal)
    (restrictions : Option ApiKeyRestrictions) (expiresAt : Option τ) :
    Task.Uses (S := services τ) (copyQuietCalls τ)
      (ApiKeyService.assertWithinCaller principal restrictions expiresAt) := by
  unfold ApiKeyService.assertWithinCaller
  split
  · refine Task.Uses.bind (Task.uses_perform rfl) fun callerKey => ?_
    cases callerKey <;> trivial
  · trivial

omit [Timestamp τ] in
theorem copyQuiet_issue (input : IssueInput τ) :
    Task.Uses (S := services τ) (copyQuietCalls τ) (service.issue input) := by
  unfold ApiKeyService.issue
  refine Task.Uses.bind (Task.uses_perform rfl) fun _ => ?_
  refine Task.Uses.bind (Task.uses_perform rfl) fun _ => ?_
  refine Task.Uses.bind (Task.uses_perform rfl) fun _ => ?_
  refine Task.Uses.bind (Task.uses_perform rfl) fun _ => ?_
  exact Task.Uses.bind copyQuiet_now fun _ => trivial

omit [Timestamp τ] in
/-- What is stored after a key was issued. -/
theorem issueOperations_eq_some {db db' : ApiKeyTables τ} {apiKey : ApiKey τ}
    (h : issueOperations db apiKey = some db') : db.keys.get apiKey.id = none ∧
      ∀ i, db'.keys.get i = if i = apiKey.id then some apiKey else db.keys.get i := by
  unfold issueOperations at h
  split at h
  · next keys prefixes hkeys _ =>
    obtain ⟨habsent, rfl⟩ := Table.insertAbsent_eq_some hkeys
    cases h
    exact ⟨habsent, fun i => rfl⟩
  · cases h

theorem ensures_create (h : InStep service.object tracked behind excused s) (apiKey : ApiKey τ) :
    (ApiKeyOp.create apiKey).perform.Ensures (localProcess τ) s fun r s' =>
      InStep service.object tracked behind excused s' ∧
        (r = .ok () → s'.committed apiKey.id = some apiKey) := by
  refine Task.ensures_perform ?_
  rintro s₁ res s₂ hbetween ⟨c, hexec⟩
  have h₁ := h.quiet (quietStep_between service.object hbetween)
  obtain ⟨hres, rfl⟩ := LocalProcess.exec_write rfl hexec
  simp only [ApiKeyOp.exec] at hres ⊢
  cases hissued : issueOperations s₁.world.apiKeys apiKey with
  | none =>
    rw [hissued] at hres
    exact ⟨h₁, fun hok => nomatch hres.symm.trans hok⟩
  | some db =>
    obtain ⟨habsent, hput⟩ := issueOperations_eq_some hissued
    refine ⟨h₁.insert habsent hput, fun _ => ?_⟩
    show db.keys.get apiKey.id = _
    rw [hput, if_pos rfl]

theorem ensures_storeCreated (h : InStep service.object tracked behind excused s)
    (htracked : ∀ id, tracked id) (apiKey : ApiKey τ) (secret createdBy : String) :
    (service.storeCreated apiKey secret createdBy).Ensures (localProcess τ) s fun _ s' =>
      InStep service.object tracked behind excused s' := by
  unfold ApiKeyService.storeCreated
  refine Task.Ensures.bind (ensures_create h apiKey) ?_ (fun _ _ hcreated => hcreated.1)
  rintro _ s₁ ⟨h₁, hcommitted⟩
  refine h₁.bind_quiet (service.uses_memory_quiet rfl) ?_ (fun _ _ _ h₂ => h₂)
  intro _ s₂ hquiet h₂
  have hcommitted₂ : s₂.committed apiKey.id = some apiKey :=
    (hquiet.committed apiKey.id).trans (hcommitted rfl)
  refine Task.Ensures.bind (ensures_rememberCreated h₂ (htracked apiKey.id) hcommitted₂) ?_
    (fun _ _ h₃ => h₃.2.1)
  rintro _ s₃ ⟨-, h₃, -⟩
  exact h₃.bind_quiet (copyQuiet_audit ..) (fun _ _ _ h₄ => h₄) (fun _ _ _ h₄ => h₄)

theorem ensures_createUnique (htracked : ∀ id, tracked id) (input : IssueInput τ) (attempts : Nat) :
    ∀ s, InStep service.object tracked behind excused s →
      (service.createUnique input attempts).Ensures (localProcess τ) s fun _ s' =>
        InStep service.object tracked behind excused s' := by
  induction attempts with
  | zero =>
    intro s h
    exact h
  | succ attempts ih =>
    intro s h
    unfold ApiKeyService.createUnique
    refine h.bind_quiet (copyQuiet_issue input) ?_ (fun _ _ _ h₁ => h₁)
    rintro ⟨apiKey, secret⟩ s₁ - h₁
    refine Task.Ensures.tryCatch (ensures_storeCreated h₁ htracked apiKey secret input.createdBy)
      (fun _ _ h₂ => h₂) ?_
    intro error s₂ h₂
    split
    · exact ih s₂ h₂
    · exact h₂

/-- The transaction of a rotation writes both keys, or none. -/
theorem ensures_rotateCommit (h : InStep service.object tracked behind excused s)
    {current retired replacement : ApiKey τ} (hread : s.Read current)
    (hid : retired.id = current.id) :
    (ApiKeyOp.rotate current retired replacement).perform.Ensures (localProcess τ) s fun r s' =>
      (∃ e, r = .error e) ∧ InStep service.object tracked behind excused s' ∨
        r = .ok () ∧ InStep service.object tracked (fun i => behind i ∨ i = current.id) excused s' ∧
          s'.committed current.id = some { retired with version := current.version + 1 } ∧
          s'.committed replacement.id = some replacement := by
  refine Task.ensures_perform ?_
  rintro s₁ res s₂ hbetween ⟨c, hexec⟩
  have hquiet : QuietStep service.object s s₁ := quietStep_between _ hbetween
  have h₁ := h.quiet hquiet
  have hread₁ := hquiet.read hread
  obtain ⟨hres, rfl⟩ := LocalProcess.exec_write rfl hexec
  simp only [ApiKeyOp.exec] at hres ⊢
  cases hrotated : rotateOperations s₁.world.apiKeys current retired replacement with
  | none =>
    rw [hrotated] at hres
    exact .inl ⟨⟨_, hres⟩, h₁⟩
  | some db =>
    rw [hrotated] at hres
    have hcurrent : s₁.world.apiKeys.keys.get current.id = some current := hread₁.current
    unfold rotateOperations at hrotated
    rw [hcurrent] at hrotated
    dsimp only at hrotated
    rw [if_pos rfl] at hrotated
    obtain ⟨habsent, hput⟩ := issueOperations_eq_some hrotated
    have hsameId : ({ retired with version := current.version + 1 } : ApiKey τ).id = current.id := hid
    have hput₁ : ∀ i, (ApiKeyTables.mk (s₁.world.apiKeys.keys.put current.id
          { retired with version := current.version + 1 }) s₁.world.apiKeys.prefixes).keys.get i =
        if i = current.id then some { retired with version := current.version + 1 }
        else s₁.committed i := fun i => rfl
    have hretired := h₁.put hread₁.returned hsameId hput₁
    have hother : current.id ≠ replacement.id := by
      intro hsame
      rw [← hsame] at habsent
      exact nomatch (Table.get_put_same ..).symm.trans habsent
    refine .inr ⟨hres, hretired.insert habsent hput, ?_, ?_⟩
    · show db.keys.get current.id = _
      rw [hput, if_neg hother]
      exact Table.get_put_same ..
    · show db.keys.get replacement.id = _
      rw [hput, if_pos rfl]

/-- What follows the transaction brings both copies up to date before it awaits anything. -/
theorem ensures_reportRotation {current retired replacement : ApiKey τ}
    (h : InStep service.object tracked (fun i => behind i ∨ i = current.id) excused s)
    (htracked : ∀ id, tracked id) (hid : retired.id = current.id)
    (hretired : s.committed current.id = some { retired with version := current.version + 1 })
    (hreplacement : s.committed replacement.id = some replacement) (rotatedAt : τ)
    (overlapSeconds : Nat) (rotatedBy : String) :
    (service.reportRotation current retired replacement rotatedAt overlapSeconds rotatedBy).Ensures
      (localProcess τ) s fun _ s' => InStep service.object tracked behind excused s' := by
  unfold ApiKeyService.reportRotation
  refine Task.Ensures.bind (ensures_rememberPrefix h.keyed _ _) ?_ (fun _ _ hp => nomatch hp.1)
  rintro _ s₁ ⟨-, hquiet⟩
  have h₁ := h.quiet hquiet
  have hreplacement₁ := (hquiet.committed replacement.id).trans hreplacement
  refine Task.Ensures.bind (ensures_rememberCreated h₁ (htracked replacement.id) hreplacement₁) ?_
    (fun _ _ hc => nomatch hc.1)
  rintro _ s₂ ⟨-, h₂, hsame⟩
  have hretired₂ : s₂.committed ({ retired with version := current.version + 1 } : ApiKey τ).id =
      some { retired with version := current.version + 1 } := by
    have hget : s₂.committed current.id = some { retired with version := current.version + 1 } := by
      rw [hsame, hquiet.committed]
      exact hretired
    exact (congrArg s₂.committed hid).trans hget
  have hbehind : InStep service.object tracked (fun i => behind i ∨
      i = ({ retired with version := current.version + 1 } : ApiKey τ).id) excused s₂ := by
    show InStep service.object tracked (fun i => behind i ∨ i = retired.id) excused s₂
    rw [hid]
    exact h₂
  refine Task.Ensures.bind (ensures_rememberLocal hbehind hretired₂) ?_ (fun _ _ hl => nomatch hl.1)
  rintro _ s₃ ⟨-, h₃⟩
  -- only now the audit writes, any of which may fail
  refine h₃.bind_quiet (copyQuiet_audit ..) ?_ (fun _ _ _ h₄ => h₄)
  intro _ s₄ _ h₄
  refine h₄.bind_quiet (copyQuiet_audit ..) ?_ (fun _ _ _ h₅ => h₅)
  intro _ s₅ _ h₅
  split
  · exact h₅.of_quiet (copyQuiet_audit ..)
  · exact h₅

theorem ensures_rotate (htracked : ∀ id, tracked id) (tenantId id : String) (overlapSeconds : Nat)
    (principal : VerifiedPrincipal) (attempts : Nat) :
    ∀ s, InStep service.object tracked behind excused s →
      (service.rotate (τ := τ) tenantId id overlapSeconds principal attempts).Ensures (localProcess τ)
        s fun _ s' => InStep service.object tracked behind excused s' := by
  induction attempts with
  | zero =>
    intro s h
    exact h
  | succ attempts ih =>
    intro s h
    unfold ApiKeyService.rotate
    refine Task.Ensures.bind (ensures_ownKey h tenantId id false) ?_ (fun _ _ hr => h.quiet hr.1)
    rintro current s₁ ⟨hquiet₁, hread⟩
    have h₁ := h.quiet hquiet₁
    cases current with
    | none => exact h₁
    | some current =>
      refine h₁.bind_quiet copyQuiet_now ?_ (fun _ _ _ h₂ => h₂)
      intro t s₂ hquiet₂ h₂
      dsimp only
      split
      · exact h₂
      split
      · exact h₂
      refine h₂.bind_quiet (copyQuiet_assertWithinCaller ..) ?_ (fun _ _ _ h₃ => h₃)
      intro _ s₃ hquiet₃ h₃
      refine h₃.bind_quiet (Task.uses_settled _ _) ?_ (fun _ _ _ h₄ => h₄)
      intro overlapEnd s₄ hquiet₄ h₄
      refine h₄.bind_quiet (copyQuiet_issue _) ?_ (fun _ _ _ h₅ => h₅)
      rintro ⟨replacement, secret⟩ s₅ hquiet₅ h₅
      have hread₅ : s₅.Read current :=
        ((hquiet₂.trans hquiet₃).trans (hquiet₄.trans hquiet₅)).read (hread current rfl)
      have hid : (ApiKeyService.retire current replacement.id t overlapEnd overlapSeconds
          principal.principalId).id = current.id := by
        unfold ApiKeyService.retire
        split <;> rfl
      refine Task.Ensures.bind (ensures_rotateCommit h₅ hread₅ hid).attempt ?_ (fun _ _ hr => by
        obtain ⟨r', hr, -⟩ := hr
        cases hr)
      rintro outcome s₆ ⟨outcome', houtcome, hcommit⟩
      obtain rfl := Except.ok.inj houtcome
      rcases hcommit with ⟨⟨error, rfl⟩, h₆⟩ | ⟨rfl, h₆, hretired, hreplacement⟩
      · dsimp only
        split
        · exact ih s₆ h₆
        · exact h₆
      · refine Task.Ensures.bind (ensures_reportRotation h₆ htracked hid hretired hreplacement
          _ _ _) ?_ (fun _ _ h₇ => h₇)
        intro _ s₇ h₇
        exact h₇

theorem ensures_update (tenantId id : String) (changes : ApiKeyChanges τ)
    (principal : VerifiedPrincipal) (attempts : Nat) :
    ∀ s, InStep service.object tracked behind excused s →
      (service.update tenantId id changes principal attempts).Ensures (localProcess τ) s fun _ s' =>
        InStep service.object tracked behind excused s' := by
  induction attempts with
  | zero =>
    intro s h
    exact h
  | succ attempts ih =>
    intro s h
    unfold ApiKeyService.update
    refine Task.Ensures.bind (ensures_ownKey h tenantId id false) ?_ (fun _ _ hr => h.quiet hr.1)
    rintro current s₁ ⟨hquiet₁, hread⟩
    have h₁ := h.quiet hquiet₁
    cases current with
    | none => exact h₁
    | some current =>
      dsimp only
      split
      · exact h₁
      refine h₁.bind_quiet copyQuiet_now ?_ (fun _ _ _ h₂ => h₂)
      intro updatedAt s₂ hquiet₂ h₂
      have hceiling : Task.Uses (S := services τ) (copyQuietCalls τ)
          (ApiKeyService.assertUpdateWithinCaller principal changes
            (changes.applied current updatedAt principal.principalId)) := by
        unfold ApiKeyService.assertUpdateWithinCaller
        split
        · exact copyQuiet_assertWithinCaller ..
        · trivial
      refine h₂.bind_quiet hceiling ?_ (fun _ _ _ h₃ => h₃)
      intro _ s₃ hquiet₃ h₃
      have hcurrent := ((hquiet₂.trans hquiet₃).read (hread current rfl)).current
      have hmerge : mergeKey (changes.applied current updatedAt principal.principalId)
          (clearedFields current (changes.applied current updatedAt principal.principalId)) current =
          changes.applied current updatedAt principal.principalId := mergeKey_replace rfl
      refine Task.Ensures.bind (ensures_overwrite h₃ hcurrent hmerge rfl) ?_ ?_
      · rintro result s₄ (⟨hr, hquiet₄⟩ | ⟨result', hr, rfl, h₄, hcommitted⟩)
        · obtain rfl := Except.ok.inj hr
          exact ih s₄ (h₃.quiet hquiet₄)
        · obtain rfl := Except.ok.inj hr
          -- the copy is renewed before the audit write
          refine Task.Ensures.bind (ensures_rememberLocal h₄ hcommitted) ?_ (fun _ _ hl => by cases hl.1)
          rintro _ s₅ ⟨-, h₅⟩
          refine h₅.bind_quiet (copyQuiet_audit ..) ?_ (fun _ _ _ h₆ => h₆)
          intro _ s₆ _ h₆
          exact h₆.bind_quiet copyQuiet_now (fun _ _ _ h₇ => h₇) (fun _ _ _ h₇ => h₇)
      · rintro e s₄ (⟨hr, -⟩ | ⟨_, hr, -⟩)
        · cases hr
        · cases hr

omit [Timestamp τ] in
/-- What `revoke` sends over the key it read. -/
theorem mergeKey_revoked (current : ApiKey τ) (t : τ) {revokedBy : String} (h : revokedBy ≠ "") :
    mergeKey { current with
        revokedAt := some t, revokedBy := keepPresent (some revokedBy) <|> current.revokedBy }
      [] current = { current with revokedAt := some t, revokedBy := some revokedBy } := by
  have hpresent : keepPresent (some revokedBy) = some revokedBy := by
    simp [keepPresent, present, h]
  rw [hpresent]
  refine mergeKey_extends ?_ rfl
  intro field hfield
  cases field <;> simp_all [ApiKey.has]

/-- An audit write that fails has lost its event. -/
theorem ensures_audit (object : Nat) (hkeyed : s.Keyed) (type : String) (apiKey : ApiKey τ)
    (principalId : String) (timestamp : τ) :
    (ApiKeyService.audit type apiKey principalId timestamp).Ensures (localProcess τ) s fun r s' =>
      QuietStep object s s' ∧
        ((∃ e, r = .error e) → ∃ event ∈ s'.lost, event.credentialId = apiKey.id) := by
  refine ensures_and (ensures_copyQuiet object (copyQuiet_audit ..) hkeyed) ?_
  unfold ApiKeyService.audit
  refine Task.Ensures.bind (Q := fun r _ => ∃ id, r = .ok id) ?_ ?_ (fun e s' hr => nomatch hr)
  · refine Task.ensures_perform ?_
    rintro s₁ res s₂ - ⟨c, hexec⟩
    obtain ⟨w', hanswer, rfl⟩ := LocalProcess.exec_other rfl hexec
    obtain ⟨-, id, -, hres⟩ := AuthorityOp.exec_uuid hanswer
    exact ⟨id, hres⟩
  · rintro id s₁ -
    refine Task.ensures_perform ?_
    rintro s₂ res s₃ - ⟨c, hexec⟩ ⟨e, rfl⟩
    obtain ⟨w', -, rfl⟩ := LocalProcess.exec_other rfl hexec
    refine ⟨_, List.mem_append_right _ (List.mem_singleton.mpr rfl), rfl⟩

/-- **A revocation awaits its audit write first.** Where that is lost the copy is left
behind; it was read, so nobody uses it. -/
theorem ensures_revoke (hexcused : excused) (tenantId id : String) {revokedBy : String}
    (hby : revokedBy ≠ "") (attempts : Nat) :
    ∀ s, InStep service.object tracked behind excused s →
      (service.revoke (τ := τ) tenantId id revokedBy attempts).Ensures (localProcess τ) s fun _ s' =>
        InStep service.object tracked behind excused s' := by
  induction attempts with
  | zero =>
    intro s h
    exact h
  | succ attempts ih =>
    intro s h
    unfold ApiKeyService.revoke
    refine Task.Ensures.bind (ensures_ownKey h tenantId id true) ?_ (fun _ _ hr => h.quiet hr.1)
    rintro current s₁ ⟨hquiet₁, hread⟩
    have h₁ := h.quiet hquiet₁
    cases current with
    | none => exact h₁
    | some current =>
      dsimp only
      split
      · exact h₁.bind_quiet copyQuiet_now (fun _ _ _ h₂ => h₂) (fun _ _ _ h₂ => h₂)
      refine h₁.bind_quiet copyQuiet_now ?_ (fun _ _ _ h₂ => h₂)
      intro t s₂ hquiet₂ h₂
      have hcurrent := (hquiet₂.read (hread current rfl)).current
      refine Task.Ensures.bind (ensures_overwrite h₂ hcurrent (mergeKey_revoked current t hby) rfl) ?_ ?_
      · rintro result s₃ (⟨hr, hquiet₃⟩ | ⟨result', hr, rfl, h₃, hcommitted⟩)
        · obtain rfl := Except.ok.inj hr
          exact ih s₃ (h₂.quiet hquiet₃)
        · obtain rfl := Except.ok.inj hr
          refine Task.Ensures.bind (ensures_audit service.object h₃.keyed _ _ _ _) ?_ ?_
          · rintro _ s₄ ⟨hquiet₄, -⟩
            have hcommitted₄ := (hquiet₄.committed current.id).trans hcommitted
            refine Task.Ensures.bind (ensures_rememberLocal (h₃.quiet hquiet₄) hcommitted₄) ?_
              (fun _ _ hl => by cases hl.1)
            rintro _ s₅ ⟨-, h₅⟩
            exact h₅.bind_quiet copyQuiet_now (fun _ _ _ h₆ => h₆) (fun _ _ _ h₆ => h₆)
          · rintro e s₄ ⟨hquiet₄, hlost⟩
            obtain ⟨event, hevent, hid⟩ := hlost ⟨e, rfl⟩
            refine (h₃.quiet hquiet₄).weaken fun i hi => ?_
            rcases hi with hbehind | rfl
            · exact .inl hbehind
            · exact .inr ⟨hexcused, event, hevent, hid⟩
      · rintro e s₃ (⟨hr, -⟩ | ⟨_, hr, -⟩)
        · cases hr
        · cases hr

theorem ensures_revokeEach (hexcused : excused) (tenantId : String) {revokedBy : String}
    (hby : revokedBy ≠ "") (keys : List (ApiKey τ)) :
    ∀ s, InStep service.object tracked behind excused s →
      (service.revokeEach tenantId revokedBy keys).Ensures (localProcess τ) s fun _ s' =>
        InStep service.object tracked behind excused s' := by
  induction keys with
  | nil =>
    intro s h
    exact h
  | cons key rest ih =>
    intro s h
    unfold ApiKeyService.revokeEach
    refine Task.Ensures.bind (ensures_revoke hexcused tenantId key.id hby _ s h) ?_
      (fun _ _ h₁ => h₁)
    intro result s₁ h₁
    refine Task.Ensures.bind (ih s₁ h₁) ?_ (fun _ _ h₂ => h₂)
    intro others s₂ h₂
    exact h₂

/-! ### Authenticating -/

omit [Timestamp τ] in
theorem copyQuiet_mint (claims : PrincipalClaims) (by_ : PrincipalVerification) :
    Task.Uses (S := services τ) (copyQuietCalls τ) (mintVerifiedPrincipal (τ := τ) claims by_) := by
  unfold mintVerifiedPrincipal
  split
  · trivial
  · next hclaims =>
    refine Task.uses_perform ?_
    show (claims.principalId != "") = true
    rw [bne_iff_ne]
    intro hempty
    rw [missingClaim, hempty] at hclaims
    cases hclaims

/-- The principal of a key has its id. -/
theorem ensures_toPrincipal (hkeyed : s.Keyed) (apiKey : ApiKey τ) :
    (service.toPrincipal apiKey).Ensures (localProcess τ) s fun r s' =>
      QuietStep service.object s s' ∧ ∀ p, r = .ok p → p.principalId = apiKey.id := by
  unfold ApiKeyService.toPrincipal
  refine ensures_and (ensures_copyQuiet service.object (Task.Uses.bind (copyQuiet_mint ..) fun _ =>
    Task.Uses.bind (Task.uses_perform rfl) fun _ => trivial) hkeyed) ?_
  refine Task.Ensures.bind (Q := fun r _ => ∀ p, r = .ok p → p.principalId = apiKey.id) ?_ ?_
    (fun _ _ _ _ hp => nomatch hp)
  · unfold mintVerifiedPrincipal
    split
    · exact fun _ hp => nomatch hp
    · refine Task.ensures_perform ?_
      rintro s₁ res s₂ - ⟨c, hexec⟩ p rfl
      obtain ⟨w', hanswer, rfl⟩ := LocalProcess.exec_other rfl hexec
      obtain ⟨hp, -⟩ := computed_ok hanswer
      rw [Except.ok.inj hp]
      rfl
  · intro p s₁ hp
    refine Task.Ensures.bind (Task.ensures_true _ s₁) ?_ (fun _ _ _ _ hp => nomatch hp)
    rintro _ s₂ - p' hp'
    rw [← Except.ok.inj hp']
    exact hp p rfl

theorem ensures_now (object : Nat) (hkeyed : s.Keyed) :
    (now : Svc τ τ).Ensures (localProcess τ) s fun r s' => QuietStep object s s' ∧
      ∀ t, r = .ok t → t = s'.world.clock := by
  refine ensures_and (ensures_copyQuiet object copyQuiet_now hkeyed) ?_
  refine Task.ensures_perform ?_
  rintro s₁ res s₂ - ⟨c, hexec⟩ t rfl
  obtain ⟨w', hanswer, rfl⟩ := LocalProcess.exec_other rfl hexec
  obtain ⟨ht, rfl⟩ := computed_ok hanswer
  exact Except.ok.inj ht

/-- A key that is active was active before. -/
theorem active_earlier {key : ApiKey τ} {t t' : τ} (h : keyStatus key t' = .active)
    (hle : Timestamp.getTime t ≤ Timestamp.getTime t') : keyStatus key t = .active := by
  have hrevoked := revokedAt_of_active h
  unfold keyStatus at h ⊢
  rw [hrevoked] at h ⊢
  simp only [Option.isSome_none, Bool.false_eq_true, if_false] at h ⊢
  cases hexpires : key.expiresAt with
  | none => rfl
  | some e =>
    rw [hexpires] at h
    simp only [Option.any_some, decide_eq_true_eq] at h ⊢
    split at h
    · cases h
    · next hlater => rw [if_neg (by omega)]

theorem active_of_authenticated {key : ApiKey τ} {secret : String} {t : τ}
    (h : service.authenticationFailure key secret t = none) : keyStatus key t = .active := by
  unfold ApiKeyService.authenticationFailure at h
  split at h
  · cases h
  · cases h
  · next hstatus => exact hstatus

/-- At this point the key was stored and active. -/
def LocalProcess.Permits (s : LocalProcess τ) (id : String) : Prop :=
  ∃ key, s.committed id = some key ∧ keyStatus key s.world.clock = .active

/-- What authentication ends with: copies in step, and who is authenticated had an active
key when it began. -/
def Authenticates (service : ApiKeyService) (tracked behind : String → Prop) (excused : Prop)
    (s₀ : LocalProcess τ) (r : Except JsError (Option VerifiedPrincipal)) (s' : LocalProcess τ) :
    Prop :=
  InStep service.object tracked behind excused s' ∧
    ∀ p, r = .ok (some p) → s₀.Permits p.principalId

/-- A key that is found and passes was active at the beginning. -/
theorem permits_of_found {s₀ s₁ s₂ : LocalProcess τ} (hquiet : QuietStep service.object s₀ s₁)
    {current : ApiKey τ} (hcurrent : s₁.committed current.id = some current)
    (hsecond : QuietStep service.object s₁ s₂) {secret : String}
    (hpasses : service.authenticationFailure current secret s₂.world.clock = none) :
    s₀.Permits current.id :=
  ⟨current, (hquiet.committed current.id).symm.trans hcurrent,
    active_earlier (active_of_authenticated hpasses) (hquiet.clock.trans hsecond.clock)⟩

/-- Nobody is authenticated. -/
theorem InStep.nobody {s₀ : LocalProcess τ}
    {r : Except JsError (Option VerifiedPrincipal)}
    (h : InStep service.object tracked behind excused s)
    (hr : ∀ p : VerifiedPrincipal, r ≠ .ok (some p)) :
    Authenticates service tracked behind excused s₀ r s := ⟨h, fun p hp => absurd hp (hr p)⟩

theorem ensures_authenticateLatest {s₀ : LocalProcess τ}
    (h : InStep service.object tracked behind excused s) (hquiet : QuietStep service.object s₀ s)
    (keyPrefix secret : String) :
    (service.authenticateLatest (τ := τ) keyPrefix secret).Ensures (localProcess τ) s
      (Authenticates service tracked behind excused s₀) := by
  unfold ApiKeyService.authenticateLatest
  refine Task.Ensures.bind (ensures_findApiKeyByPrefix h keyPrefix).attempt ?_ (fun _ _ hr => by
    obtain ⟨r', hr, -⟩ := hr
    cases hr)
  rintro found s₁ ⟨found', hfound, hquiet₁, hcurrent⟩
  obtain rfl := Except.ok.inj hfound
  have h₁ := h.quiet hquiet₁
  match found with
  | .error e => exact h₁.nobody nofun
  | .ok none => exact h₁.nobody nofun
  | .ok (some current) =>
    refine Task.Ensures.bind (ensures_now service.object h₁.keyed) ?_
      (fun e s₂ ht => (h₁.quiet ht.1).nobody nofun)
    rintro t s₂ ⟨hquiet₂, ht⟩
    obtain rfl := ht t rfl
    have h₂ := h₁.quiet hquiet₂
    split
    · next failure _ =>
      refine h₂.bind_quiet (copyQuiet_recordAuthEvent ..).ignore ?_
        (fun _ _ _ h₃ => h₃.nobody nofun)
      exact fun _ _ _ h₃ => h₃.nobody nofun
    · next hpasses =>
      have hpermits := permits_of_found (hquiet.trans hquiet₁) (hcurrent current rfl) hquiet₂ hpasses
      refine h₂.bind_quiet (copyQuiet_recordAuthEvent ..).ignore ?_
        (fun _ _ _ h₃ => h₃.nobody nofun)
      intro _ s₃ _ h₃
      refine Task.Ensures.bind (ensures_toPrincipal h₃.keyed current) ?_
        (fun e s₄ hp => (h₃.quiet hp.1).nobody nofun)
      rintro p s₄ ⟨hquiet₄, hp⟩
      refine ⟨h₃.quiet hquiet₄, fun p' hp' => ?_⟩
      obtain rfl := Option.some.inj (Except.ok.inj hp')
      rw [hp p rfl]
      exact hpermits

omit [Timestamp τ] in
/-- What `recordLastUsed` sends over the key. -/
theorem mergeKey_used (current : ApiKey τ) (t : τ) :
    mergeKey { current with lastUsedAt := some t } [] current =
      { current with lastUsedAt := some t } := by
  refine mergeKey_extends ?_ rfl
  intro field hfield
  cases field <;> simp_all [ApiKey.has]

theorem ensures_recordLastUsed (h : InStep service.object tracked behind excused s)
    {current : ApiKey τ} (hcurrent : s.committed current.id = some current) (t : τ) :
    (FeltDbApiKeyStore.recordLastUsed current.id current.version t).Ensures (localProcess τ) s
      fun r s' => r = .ok none ∧ QuietStep service.object s s' ∨
        ∃ result : ApiKey τ, r = .ok (some result) ∧
          result = { current with lastUsedAt := some t, version := current.version + 1 } ∧
          InStep service.object tracked (fun i => behind i ∨ i = current.id) excused s' ∧
          s'.committed current.id = some result := by
  have hid : ({ current with lastUsedAt := some t } : ApiKey τ).id = current.id := rfl
  unfold FeltDbApiKeyStore.recordLastUsed
  exact ensures_overwrite h hcurrent (mergeKey_used current t) hid

theorem ensures_authenticateWith {s₀ : LocalProcess τ} (keyPrefix secret : String) (attempts : Nat) :
    ∀ s, InStep service.object tracked behind excused s → QuietStep service.object s₀ s →
      (service.authenticateWith (τ := τ) keyPrefix secret attempts).Ensures (localProcess τ) s
        (Authenticates service tracked behind excused s₀) := by
  induction attempts with
  | zero =>
    intro s h hquiet
    exact ensures_authenticateLatest h hquiet keyPrefix secret
  | succ attempts ih =>
    intro s h hquiet
    unfold ApiKeyService.authenticateWith
    refine Task.Ensures.bind (ensures_findApiKeyByPrefix h keyPrefix).attempt ?_ (fun _ _ hr => by
      obtain ⟨r', hr, -⟩ := hr
      cases hr)
    rintro found s₁ ⟨found', hfound, hquiet₁, hcurrent⟩
    obtain rfl := Except.ok.inj hfound
    have h₁ := h.quiet hquiet₁
    rcases found with e | (_ | current)
    · exact ih s₁ h₁ (hquiet.trans hquiet₁)
    · exact ih s₁ h₁ (hquiet.trans hquiet₁)
    · refine Task.Ensures.bind (ensures_now service.object h₁.keyed) ?_
        (fun e s₂ ht => (h₁.quiet ht.1).nobody fun _ hp => by cases hp)
      rintro t s₂ ⟨hquiet₂, ht⟩
      obtain rfl := ht t rfl
      have h₂ := h₁.quiet hquiet₂
      split
      · next failure _ =>
        refine h₂.bind_quiet (copyQuiet_recordAuthEvent ..) ?_ (fun _ _ _ h₃ => h₃.nobody fun _ hp => by cases hp)
        exact fun _ _ _ h₃ => h₃.nobody fun _ hp => by cases hp
      · next hpasses =>
        have hpermits := permits_of_found (hquiet.trans hquiet₁) (hcurrent current rfl) hquiet₂ hpasses
        have hcommitted : s₂.committed current.id = some current :=
          (hquiet₂.committed current.id).trans (hcurrent current rfl)
        refine Task.Ensures.bind (ensures_recordLastUsed h₂ hcommitted s₂.world.clock).attempt ?_
          (fun _ _ hr => by
            obtain ⟨r', hr, -⟩ := hr
            cases hr)
        rintro updated s₃ ⟨updated', hupdated, hwritten⟩
        obtain rfl := Except.ok.inj hupdated
        rcases hwritten with ⟨rfl, hquiet₃⟩ | ⟨result, rfl, rfl, h₃, hcommitted₃⟩
        · exact ih s₃ (h₂.quiet hquiet₃) (((hquiet.trans hquiet₁).trans hquiet₂).trans hquiet₃)
        · -- the audit write may fail here, and the copy is renewed all the same
          refine Task.Ensures.bind (ensures_copyQuiet service.object (copyQuiet_recordAuthEvent ..)
            h₃.keyed).ignore ?_ (fun _ _ hr => by cases hr.1)
          rintro _ s₄ ⟨-, hquiet₄⟩
          have hcommitted₄ := (hquiet₄.committed current.id).trans hcommitted₃
          refine Task.Ensures.bind (ensures_rememberLocal (h₃.quiet hquiet₄) hcommitted₄) ?_
            (fun _ _ hr => by cases hr.1)
          rintro _ s₅ ⟨-, h₅⟩
          refine Task.Ensures.bind (ensures_toPrincipal h₅.keyed _) ?_
            (fun e s₆ hp => (h₅.quiet hp.1).nobody fun _ hp => by cases hp)
          rintro p s₆ ⟨hquiet₆, hp⟩
          refine ⟨h₅.quiet hquiet₆, fun p' hp' => ?_⟩
          obtain rfl := Option.some.inj (Except.ok.inj hp')
          rw [hp p rfl]
          exact hpermits

/-! ### Entry points -/

theorem inStep_kept : KeptByGateway (localProcess τ)
    (InStep service.object tracked behind excused) where
  calls _ hop _ _ _ h hanswers := h.quiet (quietStep_answers (gateway_copyQuiet hop) h.keyed hanswers)
  between _ _ h hbetween := h.quiet (quietStep_between _ hbetween)

theorem ensures_execute_inStep {α : Type} {gateway : ServiceGateway} {name : String}
    {input : PrincipalInput} {resource : ServiceResource} {options : ExecuteOptions}
    {effect : ServiceExecutionContext τ → EffectTools τ → Svc τ α}
    (heffect : ∀ context tools s, InStep service.object tracked behind excused s →
      (effect context tools).Ensures (localProcess τ) s fun _ s' =>
        InStep service.object tracked behind excused s')
    (h : InStep service.object tracked behind excused s) :
    (gateway.execute name input resource options effect).Ensures (localProcess τ) s fun _ s' =>
      InStep service.object tracked behind excused s' := by
  have hbody : ∀ context tools s, InStep service.object tracked behind excused s →
      (effect context tools).Ensures (localProcess τ) s fun r s' =>
        InStep service.object tracked behind excused s' ∧ ∀ a, r = .ok a → True := by
    intro context tools s₁ h₁
    exact (heffect context tools s₁ h₁).mono fun _ _ h₂ => ⟨h₂, fun _ _ => trivial⟩
  exact (ensures_execute_keeping inStep_kept hbody h).mono fun _ _ h₁ => h₁.1

/-- A verified principal has an id. -/
theorem ensures_principal (h : InStep service.object tracked behind excused s)
    (caller : PrincipalInput) :
    (requireVerifiedPrincipal (τ := τ) caller).Ensures (localProcess τ) s fun r s' =>
      InStep service.object tracked behind excused s' ∧ ∀ p, r = .ok p → p.principalId ≠ "" := by
  have hquiet := (consults_requireVerifiedPrincipal (τ := τ) caller).mono
    (consultCalls_gateway.trans gateway_copyQuiet)
  refine ensures_and (h.of_quiet hquiet) ?_
  unfold requireVerifiedPrincipal
  split
  · next p hasScopes =>
    refine Task.Ensures.bind (Q := fun r _ => r = .ok true → p.principalId ≠ "") ?_ ?_
      (fun _ _ _ _ hp => nomatch hp)
    · refine Task.ensures_perform ?_
      rintro s₁ res s₂ hbetween ⟨c, hexec⟩ hres
      have h₁ := h.quiet (quietStep_between service.object hbetween)
      obtain ⟨w', hanswer, rfl⟩ := LocalProcess.exec_other rfl hexec
      obtain ⟨hverified, -⟩ := computed_ok hanswer
      have hmem := Except.ok.inj (hverified.symm.trans hres)
      exact h₁.principals p (of_decide_eq_true hmem)
    · intro verified s₁ hverified
      cases verified with
      | true =>
        intro p' hp'
        rw [← Except.ok.inj hp']
        exact hverified rfl
      | false => exact fun _ hp => nomatch hp
  · exact fun _ hp => nomatch hp

end operations

/-- The entry point revokes keys. -/
def ApiKeyEntry.revokes : ApiKeyEntry τ → Bool
  | .revokeApiKey _ _ | .revokeAllApiKeys _ _ => true
  | _ => false

section entries

variable [Timestamp τ] {service : ApiKeyService} {tracked behind : String → Prop} {excused : Prop}
  {s : LocalProcess τ}

/-- A check, and what follows where it passes. -/
theorem InStep.bind_check {α β : Type} {r : Except JsError α} {f : α → Svc τ β}
    (h : InStep service.object tracked behind excused s)
    (hf : ∀ a, r = .ok a → (f a).Ensures (localProcess τ) s fun _ s' =>
      InStep service.object tracked behind excused s') :
    ((check r).bind f : Svc τ β).Ensures (localProcess τ) s fun _ s' =>
      InStep service.object tracked behind excused s' := by
  cases r with
  | ok a => exact hf a rfl
  | error e => exact h

theorem ensures_createApiKey (h : InStep service.object tracked behind excused s)
    (htracked : ∀ id, tracked id) (input : CreateApiKeyInput τ) (caller : PrincipalInput) :
    (service.createApiKey input caller).Ensures (localProcess τ) s fun _ s' =>
      InStep service.object tracked behind excused s' := by
  unfold ApiKeyService.createApiKey
  split
  · exact h
  refine Task.Ensures.bind (ensures_principal h caller) ?_ (fun _ _ h₁ => h₁.1)
  rintro principal s₁ ⟨h₁, -⟩
  refine h₁.bind_check fun _ _ => h₁.bind_check fun tenantId _ => ?_
  refine h₁.bind_check fun restrictions _ => h₁.bind_check fun expiresAt _ => ?_
  refine h₁.bind_check fun gateway _ => ?_
  refine ensures_execute_inStep (fun _ _ s₂ h₂ => ?_) h₁
  refine h₂.bind_quiet (copyQuiet_assertWithinCaller ..) ?_ (fun _ _ _ h₃ => h₃)
  intro _ s₃ _ h₃
  exact h₃.bind_check fun name _ => ensures_createUnique htracked _ _ s₃ h₃

theorem ensures_updateApiKey (h : InStep service.object tracked behind excused s)
    (input : UpdateApiKeyInput τ) (caller : PrincipalInput) :
    (service.updateApiKey input caller).Ensures (localProcess τ) s fun _ s' =>
      InStep service.object tracked behind excused s' := by
  unfold ApiKeyService.updateApiKey
  refine Task.Ensures.bind (ensures_principal h caller) ?_ (fun _ _ h₁ => h₁.1)
  rintro principal s₁ ⟨h₁, -⟩
  refine h₁.bind_check fun _ _ => h₁.bind_check fun tenantId _ => ?_
  refine h₁.bind_check fun id _ => h₁.bind_check fun changes _ => h₁.bind_check fun gateway _ => ?_
  exact ensures_execute_inStep (fun _ _ s₂ h₂ => ensures_update _ _ _ _ _ s₂ h₂) h₁

theorem ensures_rotateApiKey (h : InStep service.object tracked behind excused s)
    (htracked : ∀ id, tracked id) (input : RotateApiKeyInput) (caller : PrincipalInput) :
    (service.rotateApiKey (τ := τ) input caller).Ensures (localProcess τ) s fun _ s' =>
      InStep service.object tracked behind excused s' := by
  unfold ApiKeyService.rotateApiKey
  refine Task.Ensures.bind (ensures_principal h caller) ?_ (fun _ _ h₁ => h₁.1)
  rintro principal s₁ ⟨h₁, -⟩
  refine h₁.bind_check fun _ _ => h₁.bind_check fun tenantId _ => ?_
  refine h₁.bind_check fun id _ => h₁.bind_check fun overlap _ => h₁.bind_check fun gateway _ => ?_
  exact ensures_execute_inStep (fun _ _ s₂ h₂ => ensures_rotate htracked _ _ _ _ _ s₂ h₂) h₁

theorem ensures_revokeApiKey (h : InStep service.object tracked behind excused s)
    (hexcused : excused) (input : RevokeApiKeyInput) (caller : PrincipalInput) :
    (service.revokeApiKey (τ := τ) input caller).Ensures (localProcess τ) s fun _ s' =>
      InStep service.object tracked behind excused s' := by
  unfold ApiKeyService.revokeApiKey
  refine Task.Ensures.bind (ensures_principal h caller) ?_ (fun _ _ h₁ => h₁.1)
  rintro principal s₁ ⟨h₁, hprincipal⟩
  have hby := hprincipal principal rfl
  refine h₁.bind_check fun _ _ => h₁.bind_check fun tenantId _ => h₁.bind_check fun gateway _ => ?_
  exact ensures_execute_inStep (fun _ _ s₂ h₂ => ensures_revoke hexcused _ _ hby _ s₂ h₂) h₁

theorem ensures_revokeAllApiKeys (h : InStep service.object tracked behind excused s)
    (hexcused : excused) (input : RevokeAllApiKeysInput) (caller : PrincipalInput) :
    (service.revokeAllApiKeys (τ := τ) input caller).Ensures (localProcess τ) s fun _ s' =>
      InStep service.object tracked behind excused s' := by
  unfold ApiKeyService.revokeAllApiKeys
  refine Task.Ensures.bind (ensures_principal h caller) ?_ (fun _ _ h₁ => h₁.1)
  rintro principal s₁ ⟨h₁, hprincipal⟩
  have hby := hprincipal principal rfl
  refine h₁.bind_check fun _ _ => h₁.bind_check fun tenantId _ => ?_
  refine h₁.bind_check fun createdBy _ => h₁.bind_check fun gateway _ => ?_
  refine ensures_execute_inStep (fun _ _ s₂ h₂ => ?_) h₁
  refine h₂.bind_quiet (Task.uses_perform rfl) ?_ (fun _ _ _ h₃ => h₃)
  exact fun keys s₃ _ h₃ => ensures_revokeEach hexcused _ hby _ s₃ h₃

theorem ensures_authenticateApiKey (h : InStep service.object tracked behind excused s)
    (secret : JsValue) :
    (service.authenticateApiKey (τ := τ) secret).Ensures (localProcess τ) s
      (Authenticates service tracked behind excused s) := by
  unfold ApiKeyService.authenticateApiKey
  split
  · split
    · exact ensures_authenticateWith _ _ _ s h (QuietStep.refl s)
    · exact h.nobody nofun
  · exact h.nobody nofun

/-- **Every entry point keeps the copies in step**, where a revocation that loses an audit
write is excused. -/
theorem ensures_apiKeyBody (h : InStep service.object tracked behind excused s)
    (entry : ApiKeyEntry τ) (htracked : entry.revokes = false → ∀ id, tracked id)
    (hexcused : entry.revokes = true → excused) :
    (apiKeyBody ⟨service, entry⟩).Ensures (localProcess τ) s fun r s' =>
      InStep service.object tracked behind excused s' ∧
        ∀ p, r = .ok (.authenticated (some p)) → s.Permits p.principalId := by
  have hanswered : ∀ {α : Type} {t : Svc τ α} {f : α → ApiKeyAnswer τ},
      (∀ a p, f a ≠ .authenticated p) →
      (t.Ensures (localProcess τ) s fun _ s' => InStep service.object tracked behind excused s') →
      (t.bind fun a => pure (f a)).Ensures (localProcess τ) s fun r s' =>
        InStep service.object tracked behind excused s' ∧
          ∀ p, r = .ok (.authenticated (some p)) → s.Permits p.principalId := by
    intro α t f hf ht
    refine Task.Ensures.bind ht ?_ (fun e s₁ h₁ => ⟨h₁, fun _ hp => nomatch hp⟩)
    exact fun a s₁ h₁ => ⟨h₁, fun p hp => absurd (Except.ok.inj hp) (hf a _)⟩
  unfold apiKeyBody
  cases entry with
  | createApiKey input caller =>
    have hcreate := ensures_createApiKey h (htracked rfl) input caller
    exact hanswered (f := .created) (by rintro _ _ ⟨⟩) hcreate
  | updateApiKey input caller =>
    exact hanswered (f := .viewed) (by rintro _ _ ⟨⟩) (ensures_updateApiKey h input caller)
  | rotateApiKey input caller =>
    have hrotate := ensures_rotateApiKey h (htracked rfl) input caller
    exact hanswered (f := .rotated) (by rintro _ _ ⟨⟩) hrotate
  | revokeApiKey input caller =>
    have hrevoke := ensures_revokeApiKey h (hexcused rfl) input caller
    exact hanswered (f := .viewed) (by rintro _ _ ⟨⟩) hrevoke
  | revokeAllApiKeys input caller =>
    have hrevoke := ensures_revokeAllApiKeys h (hexcused rfl) input caller
    exact hanswered (f := .revoked) (by rintro _ _ ⟨⟩) hrevoke
  | authenticateApiKey secret =>
    refine Task.Ensures.bind (ensures_authenticateApiKey h secret) ?_
      (fun e s₁ h₁ => ⟨h₁.1, fun _ hp => nomatch hp⟩)
    rintro found s₁ ⟨h₁, hpermits⟩
    refine ⟨h₁, fun p hp => hpermits p ?_⟩
    have hsame := Except.ok.inj hp
    injection hsame with hsame
    rw [hsame]
  | authorize gateway capability principal resource requestId =>
    have hquiet : Task.Uses (S := services τ) (copyQuietCalls τ)
        (gateway.authorize (τ := τ) capability principal resource requestId) :=
      (gateway.consults_authorize ..).mono (consultCalls_gateway.trans gateway_copyQuiet)
    exact hanswered (f := .authorized) (by rintro _ _ ⟨⟩) (h.of_quiet hquiet)
  | identify gateway claims =>
    have hquiet : Task.Uses (S := services τ) (copyQuietCalls τ)
        (gateway.identify (τ := τ) claims) := by
      unfold ServiceGateway.identify
      split
      · trivial
      · exact copyQuiet_mint ..
    exact hanswered (f := .identified) (by rintro _ _ ⟨⟩) (h.of_quiet hquiet)

end entries

/-! ## Sequences of operations -/

section runs

variable [Timestamp τ] {service : ApiKeyService} {s₀ s s' : LocalProcess τ}

/-- The process has just started: it tracks no key and has read none. -/
structure Started (service : ApiKeyService) (s : LocalProcess τ) : Prop where
  keyed : s.Keyed
  principals : ∀ p ∈ s.world.verified, p.principalId ≠ ""
  returned : s.returned = []
  copies : s.copies service.object = []

/-- One operation, from its first call to its answer. -/
def Operates (service : ApiKeyService) (entry : ApiKeyEntry τ) (s : LocalProcess τ)
    (r : Except JsError (ApiKeyAnswer τ)) (s' : LocalProcess τ) : Prop :=
  Task.Settles (localProcess τ) (apiKeyBody ⟨service, entry⟩) { s with lost := [] } r s'

/-- Any operation, however its audit writes and reads go. -/
def SomeOperation (service : ApiKeyService) (s s' : LocalProcess τ) : Prop :=
  ∃ entry r, Operates service entry s r s'

/-- An operation that is not a revocation which loses the audit write of a key that is
tracked. -/
def AuditedOperation (service : ApiKeyService) (s s' : LocalProcess τ) : Prop :=
  ∃ entry r, Operates service entry s r s' ∧
    (entry.revokes = true → ∀ event ∈ s'.lost, ¬ s.Tracked service.object event.credentialId)

omit [Timestamp τ] in
/-- Nothing is lost yet. -/
theorem InStep.begin {tracked behind : String → Prop} {excused excused' : Prop} {object : Nat}
    (h : InStep object tracked behind excused s)
    (hcopies : ∀ entry ∈ s.copies object, s.committed entry.1 = some entry.2 ∨
      entry.1 ∈ s.returned ∧ behind entry.1) :
    InStep object tracked behind excused' { s with lost := [] } where
  keyed := h.keyed
  stored := h.stored
  principals := h.principals
  tracked := h.tracked
  copies entry hentry := by
    rcases hcopies entry hentry with hcurrent | ⟨hreturned, hbehind⟩
    · exact .inl hcurrent
    · exact .inr ⟨hreturned, .inl hbehind⟩

/-- Every copy is the version that was committed last. -/
abbrev Synchronized (service : ApiKeyService) (s : LocalProcess τ) : Prop :=
  InStep service.object (fun _ => True) (fun _ => False) False s

omit [Timestamp τ] in
theorem Synchronized.current (h : Synchronized service s) :
    ∀ entry ∈ s.copies service.object, s.committed entry.1 = some entry.2 := by
  intro entry hentry
  rcases h.copies entry hentry with hcurrent | ⟨-, hnever | ⟨hnever, -⟩⟩
  · exact hcurrent
  · exact hnever.elim
  · exact hnever.elim

omit [Timestamp τ] in
theorem Started.synchronized (h : Started service s) : Synchronized service s where
  keyed := h.keyed
  stored id hid := by
    rw [h.returned] at hid
    cases hid
  principals := h.principals
  tracked _ _ := trivial
  copies entry hentry := by
    rw [h.copies] at hentry
    cases hentry

/-- One operation keeps all copies synchronized. -/
theorem Synchronized.operation (h : Synchronized service s)
    (hop : AuditedOperation service s s') : Synchronized service s' := by
  obtain ⟨entry, r, hsettles, haudited⟩ := hop
  have hcopies := h.current
  cases hrevokes : entry.revokes with
  | false =>
    have hbegin : InStep service.object (fun _ => True) (fun _ => False) False
        { s with lost := [] } := h.begin fun e he => .inl (hcopies e he)
    exact ((ensures_apiKeyBody hbegin entry (fun _ _ => trivial)
      (fun hr => nomatch hrevokes.symm.trans hr)).settles hsettles).1
  | true =>
    -- what the revocation leaves behind has lost its audit write, and was tracked before
    have hbegin : InStep service.object (s.Tracked service.object) (fun _ => False) True
        { s with lost := [] } := {
      keyed := h.keyed
      stored := h.stored
      principals := h.principals
      tracked := fun e he => ⟨e.2, he⟩
      copies := fun e he => .inl (hcopies e he) }
    have hend := ((ensures_apiKeyBody hbegin entry (fun hr => nomatch hrevokes.symm.trans hr)
      (fun _ => trivial)).settles hsettles).1
    exact {
      keyed := hend.keyed
      stored := hend.stored
      principals := hend.principals
      tracked := fun _ _ => trivial
      copies := fun e he => by
        rcases hend.copies e he with hcurrent | ⟨-, hnever | ⟨-, event, hevent, hid⟩⟩
        · exact .inl hcurrent
        · exact hnever.elim
        · have huntracked := haudited hrevokes event hevent
          rw [hid] at huntracked
          exact absurd (hend.tracked e he) huntracked }

/-- Every copy is current, or of a key that reads no longer miss. -/
abbrev Harmless (service : ApiKeyService) (s : LocalProcess τ) : Prop :=
  InStep service.object (fun _ => True) (fun _ => True) True s

omit [Timestamp τ] in
theorem Harmless.begin (h : Harmless service s) : Harmless service { s with lost := [] } := by
  apply InStep.begin h
  intro entry hentry
  rcases h.copies entry hentry with hcurrent | ⟨hreturned, -⟩
  · exact .inl hcurrent
  · exact .inr ⟨hreturned, trivial⟩

theorem Harmless.operation (h : Harmless service s) (hop : SomeOperation service s s') :
    Harmless service s' := by
  obtain ⟨entry, r, hsettles⟩ := hop
  exact ((ensures_apiKeyBody h.begin entry (fun _ _ => trivial) (fun _ => trivial)).settles
    hsettles).1

theorem synchronized_of_run (h₀ : Started service s₀)
    (hrun : Relation.ReflTransGen (AuditedOperation service) s₀ s) : Synchronized service s := by
  induction hrun with
  | refl => exact h₀.synchronized
  | tail _ hop ih => exact ih.operation hop

theorem harmless_of_run (h₀ : Started service s₀)
    (hrun : Relation.ReflTransGen (SomeOperation service) s₀ s) : Harmless service s := by
  induction hrun with
  | refl =>
    have hsynchronized := h₀.synchronized
    exact { hsynchronized with
      copies := fun e he => .inl (hsynchronized.current e he) }
  | tail _ hop ih => exact ih.operation hop

/-- **Local copies and what was committed.** In every sequence of operations in which no
revocation of a tracked key loses its audit write, every copy is the version that was
committed last. In every sequence whatever, whoever is authenticated had a key that was
stored, not revoked and not expired when the operation began. -/
theorem localCopies_committed (h₀ : Started service s₀) :
    (∀ s, Relation.ReflTransGen (AuditedOperation service) s₀ s →
      ∀ entry ∈ s.copies service.object, s.committed entry.1 = some entry.2) ∧
    ∀ s, Relation.ReflTransGen (SomeOperation service) s₀ s → ∀ secret p s',
      Operates service (.authenticateApiKey secret) s (.ok (.authenticated (some p))) s' →
      s.Permits p.principalId := by
  constructor
  · intro s hrun
    exact (synchronized_of_run h₀ hrun).current
  · intro s hrun secret p s' hsettles
    have hbegin := (harmless_of_run h₀ hrun).begin
    exact ((ensures_apiKeyBody hbegin (.authenticateApiKey secret) (fun _ _ => trivial)
      (fun _ => trivial)).settles hsettles).2 p rfl

end runs

/-! ### One sequence -/

section sample

/-- A service in local mode. -/
def localService : ApiKeyService where
  node := {
    hmac := fun _ secret => secret
    scrypt := fun _ _ keylen => ⟨List.replicate keylen 1, List.length_replicate⟩
    localeCompare := fun a b => compare a b }
  applicationId := "crm"
  authority := some { application := "crm", authorizer := true, credentials := false }
  isLocal := true

def keeper : VerifiedPrincipal :=
  mintedPrincipal { principalId := "user-1", principalType := "user", tenantId := "acme" } .host 0

def startedProcess : LocalProcess Nat where
  world := { clock := 0, nextRef := 1, verified := [keeper] }

theorem startedProcess_started : Started localService startedProcess where
  keyed _ _ h := nomatch h
  principals p hp := by
    rw [List.mem_singleton.mp hp]
    decide
  returned := rfl
  copies := rfl

/-- The authorizer allows it. -/
def allowing (capability resource : String) : Choice :=
  .decision false (.ok (.obj [
    ("decision_id", .str "d1"), ("allowed", .bool true), ("capability", .str capability),
    ("tenant_id", .str "acme"), ("application_id", .str "crm"),
    ("subject", .obj [("id", .str "user-1")]),
    ("resource", .obj [("uri", .str ("appport://crm/tenants/acme/api_key/" ++ resource))])]))

/-- The calls of the gateway up to the effect. -/
def permitted (capability resource row : String) : List Choice :=
  [.proceed, .draw "request", .proceed, .proceed, .proceed, .proceed, allowing capability resource,
    .proceed, .proceed, .proceed, .proceed, .proceed, .draw row, .proceed]

/-- A key is created. -/
def creating : List Choice :=
  permitted "apikeys.create" "*" "row-1" ++
    [.bytes [1, 2, 3], .bytes (List.replicate 32 7), .draw "k1", .bytes (List.replicate 16 9),
      .proceed, .proceed, .proceed, .proceed, .draw "e1", .proceed, .proceed, .proceed, .proceed,
      .proceed]

/-- It is revoked, and the audit write rejects. -/
def revoking : List Choice :=
  permitted "apikeys.revoke" "k1" "row-2" ++
    [.proceed, .proceed, .proceed, .proceed, .draw "e2", .reject false "audit unavailable",
      .proceed, .proceed, .proceed, .proceed]

/-- What an operation does when its calls are answered so, by a store that does not lag. -/
def operate (entry : ApiKeyEntry Nat) (choices : List Choice) (s : LocalProcess Nat) :
    Option (Except JsError (ApiKeyAnswer Nat) × LocalProcess Nat) :=
  (Task.after (S := services Nat) LocalProcess.exec (choices.map fun choice => { choice })
    (apiKeyBody ⟨localService, entry⟩) { s with lost := [] }).bind Task.settledTo

theorem operates_of_operate {entry : ApiKeyEntry Nat} {choices : List Choice} {s s' : LocalProcess Nat}
    {r : Except JsError (ApiKeyAnswer Nat)} (h : operate entry choices s = some (r, s')) :
    Operates localService entry s r s' :=
  Task.settles_of_settledTo (E := localProcess Nat) (fun _ c _ _ _ hexec => ⟨c, hexec⟩)
    (fun s => ⟨s.world.clock, le_refl _, rfl⟩) h

def createEntry : ApiKeyEntry Nat := .createApiKey { name := .str "ci" } (.of keeper)

def revokeEntry : ApiKeyEntry Nat := .revokeApiKey { id := "k1" } (.of keeper)

theorem localCopies_committed_started :
    (∀ s, Relation.ReflTransGen (AuditedOperation localService) startedProcess s →
      ∀ entry ∈ s.copies localService.object, s.committed entry.1 = some entry.2) ∧
    ∀ s, Relation.ReflTransGen (SomeOperation localService) startedProcess s → ∀ secret p s',
      Operates localService (.authenticateApiKey secret) s (.ok (.authenticated (some p))) s' →
      s.Permits p.principalId :=
  localCopies_committed startedProcess_started

/-- The copy is live, what was committed is revoked. -/
def leftBehind (s : LocalProcess Nat) : Bool :=
  (s.copies localService.object).any fun entry =>
    entry.2.revokedAt.isNone && (s.committed entry.1).any fun key => key.revokedAt.isSome

/-- A key is created and then revoked, and the audit write of the revocation is rejected: its
copy is left as it was created. -/
theorem localCopies_behind : ∃ r₁ s₁ r₂ s₂,
    Operates localService createEntry startedProcess r₁ s₁ ∧
      Operates localService revokeEntry s₁ r₂ s₂ ∧
      ¬ ∀ entry ∈ s₂.copies localService.object, s₂.committed entry.1 = some entry.2 := by
  have hrun : ((operate createEntry creating startedProcess).bind fun first =>
      (operate revokeEntry revoking first.2).map fun second => leftBehind second.2) = some true := by
    decide +kernel
  obtain ⟨⟨r₁, s₁⟩, hcreated, hsecond⟩ := Option.bind_eq_some_iff.mp hrun
  obtain ⟨⟨r₂, s₂⟩, hrevoked, hbehind⟩ := Option.map_eq_some_iff.mp hsecond
  refine ⟨r₁, s₁, r₂, s₂, operates_of_operate hcreated, operates_of_operate hrevoked, ?_⟩
  intro hcurrent
  obtain ⟨entry, hentry, hdiffer⟩ := List.any_eq_true.mp hbehind
  rw [hcurrent entry hentry] at hdiffer
  cases hlive : entry.2.revokedAt <;> simp [hlive] at hdiffer

end sample

end AppPort
