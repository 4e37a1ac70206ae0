import AppPort.ApiKeys.Records

/-!
# Revocation is permanent

A revoked record is never written again, whatever else runs over the store. What follows
is about the calls that start after the revocation: they read the key revoked, so none
authenticates with it, and the live check of a principal it authenticated before fails.
-/

namespace AppPort

open Effects Effects.Platform

variable {τ : Type} [Timestamp τ]

/-! ## A revoked record is frozen -/

/-- Every write is over a record that is not revoked. -/
theorem KeyChange.frozen {call : ApiKeyCall τ} {ceiling : Option (ApiKey τ)}
    {db db' : ApiKeyTables τ} (h : KeyChange call ceiling db db') {id : String} {key : ApiKey τ} (hget : db.keys.get id = some key)
    (hrevoked : key.revokedAt ≠ none) : db'.keys.get id = some key := by
  have hissued : ∀ {t : Table String (ApiKey τ)} {new : ApiKey τ}, t.get new.id = none →
      t.get id = some key → (t.put new.id new).get id = some key := by
    intro t new habsent hget
    have hid : id ≠ new.id := by
      intro heq
      rw [heq, habsent] at hget
      cases hget
    rw [Table.get_put_other _ _ hid]
    exact hget
  have hreplaced : ∀ {current next : ApiKey τ}, db.keys.get current.id = some current →
      current.revokedAt = none → (db.replaced current next).keys.get id = some key := by
    intro current next hcurrent hlive
    have hid : id ≠ current.id := by
      intro heq
      rw [heq, hcurrent] at hget
      obtain rfl := Option.some.inj hget
      exact hrevoked hlive
    rw [ApiKeyTables.get_replaced, if_neg hid]
    exact hget
  cases h with
  | unchanged => exact hget
  | created _ habsent _ => exact hissued habsent hget
  | written hcurrent hlive _ => exact hreplaced hcurrent hlive
  | @rotated t current retired replacement hcurrent hkeys hother habsent _ =>
    refine hissued ?_ (hreplaced hcurrent hkeys.live)
    rw [ApiKeyTables.get_replaced, if_neg hother]
    exact habsent

/-- What a revocation leaves behind: the record stands, in a world that has moved on. -/
structure Revoked (w₀ : World τ) (id : String) (key : ApiKey τ) (w : World τ) : Prop where
  order : KeysInOrder w
  later : KeysLater w₀ w
  frozen : w.apiKeys.keys.get id = some key

theorem Revoked.step {w₀ : World τ} {id : String} {key : ApiKey τ} {ph : KeyPhase τ}
    {step : (apiKeyPlatform τ).Step} (h : Revoked w₀ id key step.before)
    (hrevoked : key.revokedAt ≠ none) (hph : ph.Sound step.before) (heffect : KeyEffect ph step) :
    Revoked w₀ id key step.after where
  order := h.order.step hph heffect
  later := h.later.trans heffect.later
  frozen := by
    cases heffect with
    | leaves hleaves =>
      rw [hleaves.apiKeys]
      exact h.frozen
    | remembers _ hafter =>
      rw [hafter]
      exact h.frozen
    | binds _ _ hafter =>
      rw [hafter]
      exact h.frozen
    | changes hchange hafter =>
      rw [hafter]
      exact hchange.frozen h.frozen hrevoked

theorem Revoked.env {w₀ w w' : World τ} {id : String} {key : ApiKey τ} {move : ApiKeyEnv τ}
    (h : Revoked w₀ id key w) (henv : apiKeyEnv move w = some w') : Revoked w₀ id key w' := by
  have hleaves := apiKeyEnv_leavesKeys henv
  refine ⟨h.order.leaves hleaves, h.later.trans hleaves.later, ?_⟩
  rw [hleaves.apiKeys]
  exact h.frozen

/-! ## What a later process reads -/

/-- A process that has only seen the key revoked, and minted nothing for it. -/
def KeyPhase.Avoids (id : String) : KeyPhase τ → Prop
  | .read current _ _ | .storing current _ _ => current.id = id → current.revokedAt ≠ none
  | .minted current _ | .bound current _ => current.id ≠ id
  | _ => True

theorem KeyStep.avoids {ph ph' : KeyPhase τ} {step : (apiKeyPlatform τ).Step} {choice : Choice}
    {w₀ : World τ} {id : String} {key : ApiKey τ} (hstep : KeyStep ph step ph')
    (hrevoked : key.revokedAt ≠ none) (h : Revoked w₀ id key step.before) (hph : ph.Avoids id)
    (hexec : AppOp.exec step.op choice step.before = some (step.res, step.after)) :
    ph'.Avoids id := by
  cases hstep with
  | plain => exact hph
  | remember => exact hph
  | stray | lose | caller => trivial
  | @prefixKnown _ call object keyPrefix res before after =>
    match res with
    | .error e => trivial
    | .ok none => trivial
    | .ok (some known) => trivial
  | @get _ call read res before after =>
    match res with
    | .error e => trivial
    | .ok none => trivial
    | .ok (some found) =>
      intro hid
      have hget : before.apiKeys.keys.get read = some found := (exec_getKey hexec).1
      have hread : found.id = read := (h.order.keyed hget).1
      rw [← hread, hid, h.frozen] at hget
      obtain rfl := Option.some.inj hget
      exact hrevoked
  | time => exact hph
  | callerOf => exact hph
  | getAgain => exact hph
  | write => exact hph
  | @create call ceiling new res before after _ =>
    match res with
    | .error e => trivial
    | .ok () => trivial
  | @rotate call current retired replacement t ceiling res before after _ =>
    match res with
    | .error e => trivial
    | .ok () => trivial
  | mint hlive _ => exact fun hid => hph hid hlive
  | bind => exact hph

/-- The step is one the world took, after the revocation. -/
def TakenSince (w₀ : World τ) (id : String) (key : ApiKey τ) (step : (apiKeyPlatform τ).Step) :
    Prop :=
  Revoked w₀ id key step.before ∧
    ∃ choice, AppOp.exec step.op choice step.before = some (step.res, step.after)

/-- The record stands, and the processes from number `n` on know no better. -/
theorem revoked_local (cond : (apiKeyPlatform τ).History → (apiKeyPlatform τ).Event → Prop)
    (w₀ : World τ) (id : String) {key : ApiKey τ} (hrevoked : key.revokedAt ≠ none) (n : Nat) :
    (keyProtocol τ).LocalOver cond KeyBase
      (fun w past => Revoked w₀ id key w ∧
        ∀ pid step, n ≤ pid → .ran pid step ∈ past → TakenSince w₀ id key step)
      (fun _ _ pid ph => n ≤ pid → ph.Avoids id) where
  spawn _ _ _ := fun _ => trivial
  good h := by
    obtain ⟨choice, hexec⟩ := h.exec
    have hsound := h.base.2 _ _ h.here
    refine ⟨h.good.1.step hrevoked hsound (h.next.change hsound hexec), ?_⟩
    intro q st hq hmem
    rcases List.mem_cons.mp hmem with heq | hmem
    · cases heq
      exact ⟨h.good.1, choice, hexec⟩
    · exact h.good.2 q st hq hmem
  own h := by
    obtain ⟨choice, hexec⟩ := h.exec
    exact fun hn => h.next.avoids hrevoked h.good.1 (h.own hn) hexec
  other h _ hq := h.sound _ _ hq
  stopGood h _ := by
    refine ⟨h.1, fun q st hq hmem => ?_⟩
    rcases List.mem_cons.mp hmem with heq | hmem
    · cases heq
    · exact h.2 q st hq hmem
  stopOther _ h := h
  envGood _ h henv := ⟨h.1.env henv, h.2⟩
  envSound _ _ h _ := h

/-! ## The live check -/

omit [Timestamp τ] in
/-- What is bound to a branded principal of a key is that key. -/
theorem KeysInOrder.boundTo {w : World τ} (hw : KeysInOrder w) {p : VerifiedPrincipal} {id : String}
    {binding : CredentialBinding} (hp : p ∈ w.verified) (hid : p.credentialId = some id)
    (hmem : (p.ref, binding) ∈ w.bound) : binding.apiKeyId = id := by
  obtain ⟨q, hq, href, hstands⟩ := hw.bound hmem
  obtain rfl := hw.brand hq hp href
  rw [hstands.2] at hid
  exact Option.some.inj hid

/-- The check of a revoked key refuses. -/
theorem CredentialBinding.check_revoked {binding : CredentialBinding} {key : ApiKey τ} {now : τ}
    (hrevoked : key.revokedAt ≠ none) (capability : String) (resource : ServiceResource) :
    binding.check (some key) now capability resource ≠ .ok () := by
  have hstatus : keyStatus key now = .revoked := by
    rw [keyStatus, if_pos (Option.isSome_iff_ne_none.mpr hrevoked)]
  intro hok
  simp only [check, hstatus] at hok
  split at hok <;> cases hok

/-- **The live check fails after the revocation.** -/
theorem checkCredential_revoked {w₀ : World τ} {id : String} {key : ApiKey τ}
    {step : (apiKeyPlatform τ).Step} (hrevoked : key.revokedAt ≠ none)
    (h : TakenSince w₀ id key step) {p : VerifiedPrincipal} {binding : CredentialBinding}
    (hp : p ∈ w₀.verified) (hid : p.credentialId = some id) (hbound : (p.ref, binding) ∈ w₀.bound) :
    (∀ {call before after}, step ≠ ⟨call, .authority (.hasBinding p), .ok false, before, after⟩) ∧
    ∀ {call capability resource before after},
      step ≠ ⟨call, .authority (.checkCredential p capability resource), .ok (), before, after⟩ := by
  obtain ⟨hworld, choice, hexec⟩ := h
  have hp' := hworld.later.verified p hp
  have hbound' := hworld.later.bound _ hbound
  constructor
  · intro call before after heq
    subst heq
    have hnone : before.bound.any (fun b => b.1 == p.ref) = false :=
      (Except.ok.inj (computed_ok hexec).1).symm
    have hno := List.any_eq_false.mp hnone _ hbound'
    simp at hno
  · intro call capability resource before after heq
    subst heq
    simp only [AppOp.exec, AuthorityOp.exec] at hexec
    cases hfind : before.bound.find? (fun b => b.1 == p.ref) with
    | none =>
      have hno := List.find?_eq_none.mp hfind _ hbound'
      simp at hno
    | some found =>
      obtain ⟨ref, binding'⟩ := found
      have href : ref = p.ref := by simpa using List.find?_some hfind
      have hmem : (p.ref, binding') ∈ before.bound := href ▸ List.mem_of_find?_eq_some hfind
      have hkey : binding'.apiKeyId = id := hworld.order.boundTo hp' hid hmem
      rw [hfind] at hexec
      rcases stored_cases hexec with ⟨hres, -⟩ | ⟨message, hres, -⟩
      · have hget : before.apiKeys.keys.get binding'.apiKeyId = some key := hkey ▸ hworld.frozen
        replace hres : Except.ok () = binding'.check (before.apiKeys.keys.get binding'.apiKeyId)
          before.clock capability resource := hres
        rw [hget] at hres
        exact CredentialBinding.check_revoked hrevoked capability resource hres.symm
      · cases hres

/-! ## What an authorization rests on -/

/-- An authorization that succeeded passed the live check of its principal. -/
def AuthorizedByCheck (call : ApiKeyCall τ) (r : Except JsError (ApiKeyAnswer τ))
    (own : List (apiKeyPlatform τ).Step) : Prop :=
  ∀ gateway capability p hasScopes resource requestId context,
    call.entry = .authorize gateway capability (.object p hasScopes) resource requestId →
    r = .ok (.authorized context) → CredentialPassed own p capability resource

theorem authorizedByCheck_obeyed :
    (traced (P := apiKeyPlatform τ) (fun _ _ => True) AuthorizedByCheck).Obeyed := by
  have hsilent : ∀ {call : ApiKeyCall τ}, (∀ gateway capability p hasScopes resource requestId,
      call.entry ≠ .authorize gateway capability (.object p hasScopes) resource requestId) →
      (traced (P := apiKeyPlatform τ) (fun _ _ => True) AuthorizedByCheck).Conforms call
        (apiKeyBody call) [] (AuthorizedByCheck call) := by
    intro call hentry
    have hgrows : Traced.Grows (P := apiKeyPlatform τ) (fun _ _ => True) AuthorizedByCheck call
        (apiKeyBody call) [] (fun _ _ => True) :=
      Traced.Grows.of_uses (fun _ _ _ _ _ _ => trivial) (Task.uses_univ (apiKeyBody call))
    refine Discipline.Conforms.mono (fun r own _ => ?_) hgrows
    intro gateway capability p hasScopes resource requestId context hcall
    exact absurd hcall (hentry gateway capability p hasScopes resource requestId)
  rintro ⟨service, entry⟩
  cases entry with
  | authorize gateway capability principal resource requestId =>
    refine Discipline.Conforms.mono (fun r own h => h.2)
      (Traced.Grows.bind (R := AuthorizedByCheck _)
        (grows_authorize (fun _ _ _ _ _ _ => trivial) gateway capability principal resource
          requestId) ?_ ?_)
    · intro context own _ hauthorized
      refine Traced.Grows.settled ?_
      intro gateway' capability' p hasScopes resource' requestId' context' hcall _
      cases hcall
      obtain ⟨q, scopes, hq, -, -, -, -, hpassed, -⟩ := (hauthorized context rfl).1
      cases hq
      exact hpassed
    · intro e own _ _ gateway' capability' p hasScopes resource' requestId' context _ hr
      cases hr
  | createApiKey | updateApiKey | rotateApiKey | revokeApiKey | revokeAllApiKeys
  | authenticateApiKey | identify => exact hsilent fun _ _ _ _ _ _ h => by cases h

/-! ## Over a whole run -/

/-- The call has returned this principal. -/
def ReturnedPrincipal (c : (apiKeyPlatform τ).Config) (pid : Nat) (p : VerifiedPrincipal) : Prop :=
  ∃ call, c.proc pid = some ⟨call, .settled (.ok (.authenticated (some p)))⟩

/-- The call has authorized something for this principal. -/
def ReturnedContext (c : (apiKeyPlatform τ).Config) (pid : Nat) (p : VerifiedPrincipal) : Prop :=
  ∃ service gateway capability hasScopes resource requestId context,
    c.proc pid = some ⟨⟨service, .authorize gateway capability (.object p hasScopes) resource requestId⟩,
      .settled (.ok (.authorized context))⟩

/-- What is known of a principal that was returned. -/
theorem ReturnedPrincipal.phase {c : (apiKeyPlatform τ).Config} {phases : (keyProtocol τ).Phases}
    (hbase : KeyBase c.world c.past phases) (htracks : (keyProtocol τ).Tracks c phases) {pid : Nat}
    {p : VerifiedPrincipal} (h : ReturnedPrincipal c pid p) : ∃ current,
      phases pid = some (.bound current p) ∧ p ∈ c.world.verified ∧
        p.credentialId = some current.id ∧ ∃ binding, (p.ref, binding) ∈ c.world.bound := by
  obtain ⟨call, hproc⟩ := h
  obtain ⟨ph, hph, hfinal⟩ := htracks.live pid _ hproc
  have hsound := hbase.2 pid ph hph
  rcases hfinal with hlost | ⟨current, hbound⟩
  · rw [hlost] at hsound
    exact hsound.elim
  · rw [hbound] at hph hsound
    exact ⟨current, hph, hsound.1, hsound.2.1.2, hsound.2.2⟩

/-- **Revocation is permanent.** A key was found revoked after some run, by whatever call.
However calls then go on, start, stop and fail: the record stays exactly what it is; no
authentication that starts later returns a principal of the key; and no authorization that
starts later succeeds for a principal the key authenticated before. -/
theorem revocation_is_permanent {w : World τ} (hw : KeysInOrder w)
    {before after : List (apiKeyPlatform τ).Action} {c c' : (apiKeyPlatform τ).Config}
    (hrun : run (Config.init w) before = some c) {id : String} {key : ApiKey τ}
    (hget : c.world.apiKeys.keys.get id = some key) (hrevoked : key.revokedAt ≠ none)
    (hrun' : run c after = some c') :
    c'.world.apiKeys.keys.get id = some key ∧
    (∀ pid p, c.procs.length ≤ pid → ReturnedPrincipal c' pid p → p.credentialId ≠ some id) ∧
    ∀ earlier p, ReturnedPrincipal c earlier p → p.credentialId = some id →
      ∀ pid, c.procs.length ≤ pid → ¬ ReturnedContext c' pid p := by
  have hinit : KeyBase w [] (fun _ => none) := ⟨hw, fun q phq hq => by cases hq⟩
  obtain ⟨hknown, phases, hbase, htracks⟩ := Discipline.sound_from (c := Config.init w)
    keyProtocol_obeyed (keyBase (fun _ _ => True)) (Discipline.known_init w) hinit
    (Discipline.tracks_init (D := keyProtocol τ) w) hrun (throughout_true c.past)
  have hstart : (KeyBase c.world c.past phases) ∧
      (Revoked c.world id key c.world ∧ ∀ pid step, c.procs.length ≤ pid → .ran pid step ∈ c.past →
        TakenSince c.world id key step) ∧
      ∀ q phq, phases q = some phq → c.procs.length ≤ q → phq.Avoids id := by
    refine ⟨hbase, ⟨⟨hbase.1, .refl _, hget⟩, ?_⟩, ?_⟩
    · intro pid step hpid hmem
      exact absurd (hknown.2 pid step hmem) (Nat.not_lt.mpr hpid)
    · intro q phq hq hle
      obtain ⟨p, hproc, -⟩ := htracks.standing hq
      exact absurd (proc_lt hproc) (Nat.not_lt.mpr hle)
  obtain ⟨-, phases', ⟨hbase', ⟨hworld, htaken⟩, havoids⟩, htracks'⟩ := Discipline.sound_from
    keyProtocol_obeyed ((keyBase (fun _ _ => True)).and
      (revoked_local _ c.world id hrevoked c.procs.length).toInductive)
    hknown hstart htracks hrun' (throughout_true c'.past)
  refine ⟨hworld.frozen, ?_, ?_⟩
  · intro pid p hpid hreturned hid
    obtain ⟨current, hph, -, hcurrent, -⟩ := hreturned.phase hbase' htracks'
    rw [hcurrent] at hid
    exact havoids pid _ hph hpid (Option.some.inj hid)
  · intro earlier p hreturned hid pid hpid hcontext
    obtain ⟨current, -, hp, -, binding, hbound⟩ := hreturned.phase hbase htracks
    obtain ⟨service, gateway, capability, hasScopes, resource, requestId, context, hproc⟩ := hcontext
    -- the check that let it pass was made after the revocation
    have hwhole : run (Config.init w) (before ++ after) = some c' := by
      rw [run_append, hrun]
      exact hrun'
    have hpassed : CredentialPassed (ownSteps pid c'.past) p capability resource :=
      Traced.settled authorizedByCheck_obeyed hwhole hproc _ _ _ _ _ _ _ rfl rfl
    rcases hpassed with ⟨-, call, w₁, w₂, hstep⟩ | ⟨⟨call, w₁, w₂, hstep⟩, -⟩
    · have hsince := htaken pid _ hpid (mem_ownSteps.mp hstep)
      exact (checkCredential_revoked hrevoked hsince hp hid hbound).2 rfl
    · have hsince := htaken pid _ hpid (mem_ownSteps.mp hstep)
      exact (checkCredential_revoked hrevoked hsince hp hid hbound).1 rfl

/-! ### A key that is revoked in use -/

section sample

/-- The key authenticates, then it is revoked. -/
def untilRevoked : List (apiKeyPlatform Nat).Action :=
  authenticatedRun ++
    [.spawn ⟨keyService, .revokeApiKey { id := "k1" } (.of keyKeeper)⟩] ++
    keyAnswers 1 (keyPermitted "user-2" 0 "apikeys.revoke" "row" ++ [.proceed, .proceed, .proceed, .proceed])

/-- Someone tries the key, and something is asked for the identity it gave before. -/
def afterRevoked : List (apiKeyPlatform Nat).Action :=
  [.spawn authenticating, .spawn ⟨keyService, .authorize
      { application := "crm", authorizer := true, credentials := false } "jobs.create"
      (.of keyPrincipal) { type := "job", tenantId := "acme" } "request"⟩] ++
    keyAnswers 2 [.proceed, .proceed, .proceed, .proceed, .draw "a2", .proceed] ++
    keyAnswers 3 [.proceed, .proceed, .proceed]

/-- The key is revoked, and had authenticated this principal. -/
def revokedInUse (p : VerifiedPrincipal) (c : (apiKeyPlatform Nat).Config) : Bool :=
  ((c.world.apiKeys.keys.get "k1").any fun key => key.revokedAt.isSome) &&
    match c.proc 0 with
    | some ⟨_, .settled (.ok (.authenticated (some q)))⟩ => q == p
    | _ => false

theorem revocation_is_permanent_inUse :
    ∃ c c' key, run (Config.init (oneKeyWorld storedKey)) untilRevoked = some c ∧
      run c afterRevoked = some c' ∧ revokedInUse keyPrincipal c = true ∧
      c'.world.apiKeys.keys.get "k1" = some key ∧ key.revokedAt ≠ none ∧
      ¬ ReturnedContext c' 3 keyPrincipal := by
  obtain ⟨c, hrun, hrest⟩ : ∃ c,
      run (Config.init (oneKeyWorld storedKey)) untilRevoked = some c ∧
      (revokedInUse keyPrincipal c && (c.procs.length == 2) && (run c afterRevoked).isSome) = true :=
    exists_of_run (by decide +kernel)
  simp only [Bool.and_eq_true, beq_iff_eq] at hrest
  obtain ⟨⟨hused, hlength⟩, hsome⟩ := hrest
  obtain ⟨c', hrun'⟩ := Option.isSome_iff_exists.mp hsome
  have hparts := hused
  simp only [revokedInUse, Bool.and_eq_true] at hparts
  obtain ⟨hkey, hfirst⟩ := hparts
  cases hget : c.world.apiKeys.keys.get "k1" with
  | none => simp [hget] at hkey
  | some key =>
    have hrevoked : key.revokedAt ≠ none := by
      simpa [hget, Option.isSome_iff_ne_none] using hkey
    have hreturned : ReturnedPrincipal c 0 keyPrincipal := by
      split at hfirst
      · next call q hproc =>
        obtain rfl := beq_iff_eq.mp hfirst
        exact ⟨call, hproc⟩
      · cases hfirst
    obtain ⟨hstays, -, hrefused⟩ :=
      revocation_is_permanent (oneKeyWorld_inOrder (by decide)) hrun hget hrevoked hrun'
    exact ⟨c, c', key, hrun, hrun', hused, hstays, hrevoked,
      hrefused 0 keyPrincipal hreturned rfl 3 (by omega)⟩

end sample

end AppPort
