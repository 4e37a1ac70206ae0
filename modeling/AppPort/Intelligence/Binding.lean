import AppPort.Intelligence.Service
import AppPort.Configuration.DryRun
import AppPort.Lib.Index

/-!
# Credentials stay with their destinations

What a scope's two rows come to is a placement: the destination its selection leads to,
and the credential bound beside it. Every call of the intelligence service moves the
placement of one scope, in one of the ways `IntelligenceRequest.Moves` says. So whenever
the runtime is handed a credential and an endpoint, some call supplied that credential
for that endpoint.
-/

namespace AppPort

open Effects
open ConfigurationTransferDependencies (ensures_configuration_read)

variable {τ : Type}

/-! ## Placements -/

/-- Where requests are sent. -/
structure Destination where
  provider : String
  endpoint : String
  deriving DecidableEq, Repr

/-- What is configured for a scope. -/
structure Placement where
  destination : Option Destination
  credential : Option String
  deriving DecidableEq, Repr

/-- The destination a selection leads to. -/
def destinationOf (selection : IntelligenceSelection) : Option Destination :=
  (getIntelligenceProvider selection.provider).map fun provider =>
    ⟨provider.id, resolveEndpoint provider selection.endpoint⟩

/-- The selection a text is read as. -/
def selectionOf (value : String) : Option IntelligenceSelection := (parseSelection value).toOption

/-- The scope a variable holds the selection of. -/
def selectionScope (v : ConfigurationVariable τ) : Option ConfigurationScope :=
  if v.name = INTELLIGENCE_SELECTION_NAME then some v.toConfigurationScope else none

/-- The scope a binding holds the credential of. -/
def credentialScope (s : ConfigurationSecret τ) : Option ConfigurationScope :=
  if s.name = INTELLIGENCE_CREDENTIAL_NAME then some s.toConfigurationScope else none

/-- The placement of a scope. -/
def placementOf (c : ConfigurationTables τ) (owned : ConfigurationScope) : Placement where
  destination := ((c.variableTable.lookup selectionScope owned).bind fun v =>
    selectionOf v.value).bind destinationOf
  credential := (c.secretTable.lookup credentialScope owned).map ConfigurationSecret.credentialRef

/-- The rows of the intelligence service are under their ids, and one to a scope. -/
structure IntelligenceIndexed (c : ConfigurationTables τ) : Prop where
  selections : c.variableTable.Indexed ConfigurationVariable.id selectionScope
  credentials : c.secretTable.Indexed ConfigurationSecret.id credentialScope

theorem variableOf_selection (c : ConfigurationTables τ) (owned : ConfigurationScope) :
    c.variableOf owned INTELLIGENCE_SELECTION_NAME = c.variableTable.lookup selectionScope owned := by
  have hsame : (fun v : ConfigurationVariable τ => owned.owns v.toConfigurationScope &&
      v.name == INTELLIGENCE_SELECTION_NAME) = fun v => selectionScope v == some owned := by
    funext v
    rw [Bool.eq_iff_iff]
    by_cases hname : v.name = INTELLIGENCE_SELECTION_NAME <;> simp [selectionScope, hname]
  show (c.variableTable.find _).head? = (c.variableTable.find _).head?
  rw [hsame]

theorem bindingOf_credential (c : ConfigurationTables τ) (owned : ConfigurationScope) :
    c.bindingOf owned INTELLIGENCE_CREDENTIAL_NAME = c.secretTable.lookup credentialScope owned := by
  have hsame : (fun s : ConfigurationSecret τ => owned.owns s.toConfigurationScope &&
      s.name == INTELLIGENCE_CREDENTIAL_NAME) = fun s => credentialScope s == some owned := by
    funext s
    rw [Bool.eq_iff_iff]
    by_cases hname : s.name = INTELLIGENCE_CREDENTIAL_NAME <;> simp [credentialScope, hname]
  show (c.secretTable.find _).head? = (c.secretTable.find _).head?
  rw [hsame]

/-! ## What the calls do to a placement -/

/-- A call, as far as it matters to the placement of its scope. -/
inductive IntelligenceRequest where
  /-- `catalog`, `get` and `resolveRuntime`. -/
  | read
  | set (destination : Destination) (credentialRef : Option String)
  | setCredential (credentialRef : String)
  | removeCredential

/-- **The ways a placement moves.** A selection without a credential drops the one that is
bound, or keeps it and leads where it led. One with a credential binds it first, so that
a call that rejects may leave it beside the selection before. -/
def IntelligenceRequest.Moves (resolved : Bool) (p p' : Placement) : IntelligenceRequest → Prop
  | .read => p' = p
  | .set _ none => p'.credential = none ∨ p' = p
  | .set destination (some ref) => p' = ⟨some destination, some ref⟩ ∨
      (resolved = false ∧ (p' = p ∨ p' = ⟨p.destination, some ref⟩))
  | .setCredential ref => p' = p ∨ p' = { p with credential := some ref }
  | .removeCredential => p' = p ∨ p' = { p with credential := none }

/-- The placement of one scope has moved, and no other. -/
structure Moved (owned : ConfigurationScope) (Q : Placement → Prop) (c c' : ConfigurationTables τ) :
    Prop where
  indexed : IntelligenceIndexed c'
  elsewhere : ∀ scope, scope ≠ owned → placementOf c' scope = placementOf c scope
  here : Q (placementOf c' owned)

/-- A call that settled so moved the placement of its scope as it may. -/
def IntelligenceRequest.MovedBy {α : Type} (request : IntelligenceRequest)
    (owned : ConfigurationScope) (c : ConfigurationTables τ) (r : Except JsError α)
    (c' : ConfigurationTables τ) : Prop :=
  Moved owned (request.Moves r.isOk (placementOf c owned)) c c'

/-- A call that rejects may have done nothing. -/
theorem IntelligenceRequest.moves_refl (request : IntelligenceRequest) (p : Placement) :
    request.Moves false p p := by
  cases request with
  | read => rfl
  | set destination credentialRef =>
    cases credentialRef with
    | none => exact .inr rfl
    | some ref => exact .inr ⟨rfl, .inl rfl⟩
  | setCredential ref => exact .inl rfl
  | removeCredential => exact .inl rfl

/-- What a call may do when it resolves, it may have done when it rejects. -/
theorem IntelligenceRequest.Moves.rejected {request : IntelligenceRequest} {resolved : Bool}
    {p p' : Placement} (h : request.Moves resolved p p') : request.Moves false p p' := by
  cases request with
  | set destination credentialRef =>
    cases credentialRef with
    | none => exact h
    | some ref =>
      rcases h with hset | ⟨-, hkept⟩
      · exact .inl hset
      · exact .inr ⟨rfl, hkept⟩
  | _ => exact h

/-! ## The rows that are written -/

section rows

variable [Timestamp τ]

omit [Timestamp τ] in
/-- **A row is saved** over the one that is looked up, or where there is none. -/
theorem saveItem_indexed {α : Type} [Versioned α] (idOf : α → String)
    {index : α → Option ConfigurationScope} {t t' : Table String α} (h : t.Indexed idOf index)
    {owned : ConfigurationScope} {item : α} {r : Except JsError Unit}
    (hid : ∀ b, t.lookup index owned = some b → idOf b = idOf item)
    (hindex : index item = some owned)
    (hversion : ∀ v, idOf (Versioned.withVersion item v) = idOf item ∧
      index (Versioned.withVersion item v) = index item)
    (hsave : saveItem t (idOf item) item ((t.lookup index owned).map Versioned.version) = (r, t')) :
    (r = .ok () ∧ ∃ stored, (stored = item ∨ ∃ v, stored = Versioned.withVersion item v) ∧
      t'.Indexed idOf index ∧
      ∀ scope, t'.lookup index scope = if scope = owned then some stored else t.lookup index scope) ∨
    ((∃ error, r = .error error) ∧ t' = t) := by
  cases hlookup : t.lookup index owned with
  | none =>
    rw [hlookup] at hsave
    simp only [saveItem, Option.map_none] at hsave
    split at hsave
    · next t₁ hinsert =>
      obtain ⟨habsent, rfl⟩ := Table.insertAbsent_eq_some hinsert
      obtain ⟨hok, rfl⟩ := Prod.mk.inj hsave
      exact .inl ⟨hok.symm, item, .inl rfl, h.put hindex (.inl ⟨habsent, hlookup⟩)⟩
    · obtain ⟨rfl, rfl⟩ := Prod.mk.inj hsave
      exact .inr ⟨⟨_, rfl⟩, rfl⟩
  | some b =>
    obtain ⟨hget, hindexb⟩ := h.of_lookup hlookup
    rw [hid b hlookup] at hget
    rw [hlookup] at hsave
    simp only [saveItem, Option.map_some] at hsave
    split at hsave
    · next stored t₁ hupdate =>
      obtain ⟨hok, rfl⟩ := Prod.mk.inj hsave
      rcases Table.updateIfVersion_eq hupdate with ⟨a, -, -, -, rfl⟩ | ⟨hnone, -⟩
      · obtain ⟨hidv, hindexv⟩ := hversion (Versioned.version b + 1)
        refine .inl ⟨hok.symm, Versioned.withVersion item (Versioned.version b + 1), .inr ⟨_, rfl⟩, ?_⟩
        rw [← hidv] at hget ⊢
        exact h.put (hindexv.trans hindex) (.inr ⟨b, hget, hindexb⟩)
      · cases hnone
    · next t₁ hupdate =>
      obtain ⟨rfl, rfl⟩ := Prod.mk.inj hsave
      rcases Table.updateIfVersion_eq hupdate with ⟨a, -, -, hsome, -⟩ | ⟨-, rfl⟩
      · cases hsome
      · exact .inr ⟨⟨_, rfl⟩, rfl⟩

/-- A call of the configuration store that writes, alone: it does what it does, unless it
rejects, and then it may have done nothing. -/
theorem ensures_configuration_write {op : ConfigurationOp τ} {w : World τ}
    {res : Except JsError op.Out} {c : ConfigurationTables τ}
    (hexec : ConfigurationOp.exec w.configuration op = (res, c)) :
    Task.Ensures (S := services τ) (alone τ) op.perform w (fun r w' =>
      (r = res ∧ w'.configuration = c) ∨
        ((∃ error, r = .error error) ∧ (w'.configuration = c ∨ w'.configuration = w.configuration))) := by
  refine Task.ensures_perform ?_
  rintro w₁ r w₂ rfl ⟨choice, hanswer⟩
  simp only [AppOp.exec, hexec] at hanswer
  rcases stored_cases hanswer with ⟨rfl, rfl⟩ | ⟨message, rfl, rfl | rfl⟩
  · exact .inl ⟨rfl, rfl⟩
  · exact .inr ⟨⟨_, rfl⟩, .inl rfl⟩
  · exact .inr ⟨⟨_, rfl⟩, .inr rfl⟩

/-- The rows are as they were; what is audited is not asked for. -/
def SameRows (c c' : ConfigurationTables τ) : Prop :=
  c'.variableTable = c.variableTable ∧ c'.secretTable = c.secretTable

omit [Timestamp τ] in
theorem SameRows.placement {c c' : ConfigurationTables τ} (h : SameRows c c')
    (scope : ConfigurationScope) : placementOf c' scope = placementOf c scope := by
  unfold placementOf
  rw [h.1, h.2]

omit [Timestamp τ] in
theorem SameRows.indexed {c c' : ConfigurationTables τ} (h : SameRows c c')
    (hindexed : IntelligenceIndexed c) : IntelligenceIndexed c' := by
  constructor
  · rw [h.1]
    exact hindexed.selections
  · rw [h.2]
    exact hindexed.credentials

omit [Timestamp τ] in
theorem SameRows.of_eq {c c' : ConfigurationTables τ} (h : c' = c) : SameRows c c' := by
  rw [h]
  exact ⟨rfl, rfl⟩

theorem ensures_record_rows (type : String) (scope : ConfigurationScope)
    (name kind actor operation status : String) (w : World τ) :
    (ConfigurationService.record type scope name kind actor operation status).Ensures (alone τ) w
      (fun _ w' => SameRows w.configuration w'.configuration) := by
  unfold ConfigurationService.record
  have hrows : ∀ {w' : World τ}, SameStores w w' → SameRows w.configuration w'.configuration :=
    fun h => .of_eq h.configuration
  refine Task.Ensures.bind ((sameStores_kept w).ensures uses_randomUUID (.refl w)) ?_
    (fun _ _ h => hrows h)
  intro id w₁ hw₁
  refine Task.Ensures.bind ((sameStores_kept w).ensures uses_now hw₁) ?_ (fun _ _ h => hrows h)
  intro timestamp w₂ hw₂
  refine (ensures_configuration_write rfl).mono fun r w' hwritten => ?_
  rw [← hw₂.configuration]
  rcases hwritten with ⟨-, heq⟩ | ⟨-, heq | heq⟩
  · rw [heq]
    exact ⟨rfl, rfl⟩
  · rw [heq]
    exact ⟨rfl, rfl⟩
  · exact .of_eq heq

/-- The placement of a scope becomes this one, or stays as it is where the call rejects. -/
structure Becomes {α : Type} (owned : ConfigurationScope) (p' : Placement) (c : ConfigurationTables τ)
    (r : Except JsError α) (c' : ConfigurationTables τ) : Prop where
  indexed : IntelligenceIndexed c'
  elsewhere : ∀ scope, scope ≠ owned → placementOf c' scope = placementOf c scope
  here : placementOf c' owned = p' ∨
    ((∃ error, r = .error error) ∧ placementOf c' owned = placementOf c owned)

omit [Timestamp τ] in
/-- Nothing is written. -/
theorem Becomes.unwritten {α : Type} {owned : ConfigurationScope} {p' : Placement}
    {c c' : ConfigurationTables τ} (hindexed : IntelligenceIndexed c) (hrows : SameRows c c')
    (error : JsError) : Becomes owned p' c (.error error : Except JsError α) c' where
  indexed := hrows.indexed hindexed
  elsewhere scope _ := hrows.placement scope
  here := .inr ⟨⟨error, rfl⟩, hrows.placement owned⟩

omit [Timestamp τ] in
/-- What is audited, and how the call settles from there, do not matter. -/
theorem Becomes.rows {α β : Type} {owned : ConfigurationScope} {p' : Placement}
    {c c' c'' : ConfigurationTables τ} {a : α} {r : Except JsError β}
    (h : Becomes owned p' c (.ok a) c') (hrows : SameRows c' c'') : Becomes owned p' c r c'' where
  indexed := hrows.indexed h.indexed
  elsewhere scope hne := (hrows.placement scope).trans (h.elsewhere scope hne)
  here := by
    rcases h.here with hbecomes | ⟨⟨error, herror⟩, -⟩
    · exact .inl ((hrows.placement owned).trans hbecomes)
    · cases herror

omit [Timestamp τ] in
/-- A credential is written, or removed. -/
theorem Becomes.of_credential {α : Type} {owned : ConfigurationScope} {c c' : ConfigurationTables τ}
    {ref : Option String} {r : Except JsError α} (hselections : c'.variableTable = c.variableTable)
    (h : IntelligenceIndexed c) (hcredentials : c'.secretTable.Indexed ConfigurationSecret.id credentialScope)
    (hlookup : ∀ scope, (c'.secretTable.lookup credentialScope scope).map
        ConfigurationSecret.credentialRef =
      if scope = owned then ref
      else (c.secretTable.lookup credentialScope scope).map ConfigurationSecret.credentialRef) :
    Becomes owned { placementOf c owned with credential := ref } c r c' where
  indexed := by
    constructor
    · rw [hselections]
      exact h.selections
    · exact hcredentials
  elsewhere scope hne := by
    unfold placementOf
    rw [hlookup, if_neg hne, hselections]
  here := by
    refine .inl ?_
    unfold placementOf
    rw [hlookup, if_pos rfl, hselections]

omit [Timestamp τ] in
/-- A selection is written. -/
theorem Becomes.of_selection {α : Type} {owned : ConfigurationScope} {c c' : ConfigurationTables τ}
    {v : ConfigurationVariable τ} {selection : IntelligenceSelection} {r : Except JsError α}
    (hcredentials : c'.secretTable = c.secretTable) (h : IntelligenceIndexed c)
    (hselections : c'.variableTable.Indexed ConfigurationVariable.id selectionScope)
    (hlookup : ∀ scope, c'.variableTable.lookup selectionScope scope =
      if scope = owned then some v else c.variableTable.lookup selectionScope scope)
    (hread : parseSelection v.value = .ok selection) :
    Becomes owned { placementOf c owned with destination := destinationOf selection } c r c' where
  indexed := by
    constructor
    · exact hselections
    · rw [hcredentials]
      exact h.credentials
  elsewhere scope hne := by
    unfold placementOf
    rw [hlookup, if_neg hne, hcredentials]
  here := by
    refine .inl ?_
    unfold placementOf
    rw [hlookup, if_pos rfl, hcredentials]
    simp [selectionOf, hread, Except.toOption]

/-- What the audit of a write adds to it. -/
theorem ensures_recorded {owned scope : ConfigurationScope} {p' : Placement}
    {c : ConfigurationTables τ} {w : World τ} (h : Becomes owned p' c (.ok ()) w.configuration)
    (type name kind actor operation status : String) :
    (ConfigurationService.record type scope name kind actor operation status).Ensures (alone τ) w
      (fun r w' => Becomes owned p' c r w'.configuration) :=
  (ensures_record_rows type scope name kind actor operation status w).mono
    fun _ _ hrows => h.rows hrows

omit [Timestamp τ] in
/-- A write that rejects may have been made. -/
theorem Becomes.of_write {owned : ConfigurationScope} {p' : Placement} {c c' : ConfigurationTables τ}
    {res r : Except JsError Unit} {w : World τ} (hindexed : IntelligenceIndexed c)
    (hdone : (∃ a, res = .ok a) → Becomes owned p' c (.ok ()) c')
    (hundone : (∃ error, res = .error error) → SameRows c c')
    (h : (r = res ∧ w.configuration = c') ∨
      ((∃ error, r = .error error) ∧ (w.configuration = c' ∨ w.configuration = c))) :
    Becomes owned p' c r w.configuration := by
  have hkept : ∀ error, w.configuration = c' → Becomes owned p' c (.error error : Except JsError Unit) w.configuration := by
    intro error heq
    rw [heq]
    cases res with
    | ok a => exact (hdone ⟨a, rfl⟩).rows ⟨rfl, rfl⟩
    | error e => exact .unwritten hindexed (hundone ⟨e, rfl⟩) error
  rcases h with ⟨rfl, heq⟩ | ⟨⟨error, rfl⟩, heq | heq⟩
  · cases r with
    | ok a =>
      rw [heq]
      exact hdone ⟨a, rfl⟩
    | error e => exact hkept e heq
  · exact hkept error heq
  · rw [heq]
    exact .unwritten hindexed ⟨rfl, rfl⟩ error

/-- A binding is saved over the one that is looked up, or where there is none. -/
theorem ensures_saveSecret {owned : ConfigurationScope} {item : ConfigurationSecret τ}
    {expected : Option Nat} {w : World τ} (hindexed : IntelligenceIndexed w.configuration)
    (hscope : credentialScope item = some owned)
    (hid : ∀ b, w.configuration.secretTable.lookup credentialScope owned = some b → b.id = item.id)
    (hexpected : expected =
      (w.configuration.secretTable.lookup credentialScope owned).map Versioned.version) :
    Task.Ensures (S := services τ) (alone τ) (ConfigurationOp.saveSecret item expected).perform w
      (fun r w' => Becomes owned { placementOf w.configuration owned with
        credential := some item.credentialRef } w.configuration r w'.configuration) := by
  subst hexpected
  rcases hsave : saveItem w.configuration.secretTable item.id item
    ((w.configuration.secretTable.lookup credentialScope owned).map Versioned.version) with ⟨res, t⟩
  have hexec : ConfigurationOp.exec w.configuration (.saveSecret item ((w.configuration.secretTable.lookup
      credentialScope owned).map Versioned.version)) = (res, { w.configuration with secretTable := t }) := by
    simp only [ConfigurationOp.exec, hsave]
  refine (ensures_configuration_write hexec).mono fun r w' h => ?_
  have hwritten := saveItem_indexed ConfigurationSecret.id hindexed.credentials
    hid hscope (fun v => ⟨rfl, rfl⟩) hsave
  refine Becomes.of_write hindexed ?_ ?_ h
  · rintro ⟨a, rfl⟩
    rcases hwritten with ⟨-, stored, hstored, hcredentials, hlookup⟩ | ⟨⟨e, he⟩, -⟩
    · refine .of_credential rfl hindexed hcredentials fun scope => ?_
      have href : stored.credentialRef = item.credentialRef := by
        rcases hstored with rfl | ⟨v, rfl⟩ <;> rfl
      show (t.lookup credentialScope scope).map ConfigurationSecret.credentialRef = _
      rw [hlookup]
      by_cases hscope' : scope = owned
      · simp [hscope', href]
      · simp [hscope']
    · cases he
  · rintro ⟨e, rfl⟩
    rcases hwritten with ⟨hok, -⟩ | ⟨-, rfl⟩
    · cases hok
    · exact ⟨rfl, rfl⟩

/-- A selection is saved over the one that is looked up, or where there is none. -/
theorem ensures_saveVariable {owned : ConfigurationScope} {item : ConfigurationVariable τ}
    {selection : IntelligenceSelection} {expected : Option Nat} {w : World τ}
    (hindexed : IntelligenceIndexed w.configuration) (hscope : selectionScope item = some owned)
    (hread : parseSelection item.value = .ok selection)
    (hid : ∀ b, w.configuration.variableTable.lookup selectionScope owned = some b → b.id = item.id)
    (hexpected : expected =
      (w.configuration.variableTable.lookup selectionScope owned).map Versioned.version) :
    Task.Ensures (S := services τ) (alone τ) (ConfigurationOp.saveVariable item expected).perform w
      (fun r w' => Becomes owned { placementOf w.configuration owned with
        destination := destinationOf selection } w.configuration r w'.configuration) := by
  subst hexpected
  rcases hsave : saveItem w.configuration.variableTable item.id item
    ((w.configuration.variableTable.lookup selectionScope owned).map Versioned.version) with ⟨res, t⟩
  have hexec : ConfigurationOp.exec w.configuration (.saveVariable item ((w.configuration.variableTable.lookup
      selectionScope owned).map Versioned.version)) = (res, { w.configuration with variableTable := t }) := by
    simp only [ConfigurationOp.exec, hsave]
  refine (ensures_configuration_write hexec).mono fun r w' h => ?_
  have hwritten := saveItem_indexed ConfigurationVariable.id hindexed.selections
    hid hscope (fun v => ⟨rfl, rfl⟩) hsave
  refine Becomes.of_write hindexed ?_ ?_ h
  · rintro ⟨a, rfl⟩
    rcases hwritten with ⟨-, stored, hstored, hselections, hlookup⟩ | ⟨⟨e, he⟩, -⟩
    · refine .of_selection rfl hindexed hselections hlookup ?_
      rcases hstored with rfl | ⟨v, rfl⟩ <;> exact hread
    · cases he
  · rintro ⟨e, rfl⟩
    rcases hwritten with ⟨hok, -⟩ | ⟨-, rfl⟩
    · cases hok
    · exact ⟨rfl, rfl⟩

/-- A write, and what is audited of it. -/
theorem ensures_written {owned scope : ConfigurationScope} {p' : Placement}
    {c : ConfigurationTables τ} {write : Svc τ Unit} {w : World τ}
    (h : write.Ensures (alone τ) w (fun r w' => Becomes owned p' c r w'.configuration))
    (type name kind actor operation status : String) :
    (write.bind fun _ => ConfigurationService.record type scope name kind actor operation
      status).Ensures (alone τ) w (fun r w' => Becomes owned p' c r w'.configuration) :=
  Task.Ensures.bind h
    (fun _ _ hbecomes => ensures_recorded hbecomes type name kind actor operation status)
    fun _ _ hbecomes => hbecomes

/-- **`bind`.** -/
theorem ensures_bind {owned : ConfigurationScope} (ref : String) (principal : VerifiedPrincipal)
    {w : World τ} (hindexed : IntelligenceIndexed w.configuration) :
    (IntelligenceService.bind owned (w.configuration.secretTable.lookup credentialScope owned) ref
      principal).Ensures (alone τ) w (fun r w' =>
        Becomes owned { placementOf w.configuration owned with credential := some ref }
          w.configuration r w'.configuration) := by
  unfold IntelligenceService.bind
  refine Task.Ensures.bind (ensures_alone_now w) ?_ ?_
  · rintro timestamp w₁ ⟨rfl, -⟩
    cases hlookup : w₁.configuration.secretTable.lookup credentialScope owned with
    | some current =>
      obtain ⟨-, hscope⟩ := hindexed.credentials.of_lookup hlookup
      have hid : ∀ b, w₁.configuration.secretTable.lookup credentialScope owned = some b →
          b.id = current.id := by
        intro b hb
        rw [hlookup] at hb
        rw [Option.some.inj hb]
      refine ensures_written (ensures_saveSecret hindexed ?_ ?_ ?_) _ _ _ _ _ _
      · exact hscope
      · exact hid
      · rw [hlookup]
        rfl
    | none =>
      refine Task.Ensures.bind ((sameStores_kept w₁).ensures uses_randomUUID (.refl w₁)) ?_ ?_
      · intro id w₂ hsame
        rw [← hsame.configuration] at hindexed hlookup ⊢
        refine ensures_written (ensures_saveSecret hindexed ?_ ?_ ?_) _ _ _ _ _ _
        · show (if INTELLIGENCE_CREDENTIAL_NAME = INTELLIGENCE_CREDENTIAL_NAME then some owned
            else none) = some owned
          rw [if_pos rfl]
        · intro b hb
          rw [hlookup] at hb
          cases hb
        · rw [hlookup]
          rfl
      · exact fun error w₂ hsame => .unwritten hindexed (.of_eq hsame.configuration) error
  · rintro error w₁ ⟨rfl, -⟩
    exact .unwritten hindexed ⟨rfl, rfl⟩ error

/-- **`save`.** -/
theorem ensures_save {owned : ConfigurationScope} {selection : IntelligenceSelection}
    (principal : VerifiedPrincipal) {w : World τ} (hindexed : IntelligenceIndexed w.configuration)
    (hread : parseSelection selection.text = .ok selection) :
    (IntelligenceService.save owned (w.configuration.variableTable.lookup selectionScope owned)
      selection principal).Ensures (alone τ) w (fun r w' =>
        Becomes owned { placementOf w.configuration owned with
          destination := destinationOf selection } w.configuration r w'.configuration) := by
  unfold IntelligenceService.save
  refine Task.Ensures.bind (ensures_alone_now w) ?_ ?_
  · rintro timestamp w₁ ⟨rfl, -⟩
    cases hlookup : w₁.configuration.variableTable.lookup selectionScope owned with
    | some current =>
      obtain ⟨-, hscope⟩ := hindexed.selections.of_lookup hlookup
      have hid : ∀ b, w₁.configuration.variableTable.lookup selectionScope owned = some b →
          b.id = current.id := by
        intro b hb
        rw [hlookup] at hb
        rw [Option.some.inj hb]
      refine ensures_written (ensures_saveVariable hindexed ?_ ?_ ?_ ?_) _ _ _ _ _ _
      · exact hscope
      · exact hread
      · exact hid
      · rw [hlookup]
        rfl
    | none =>
      refine Task.Ensures.bind ((sameStores_kept w₁).ensures uses_randomUUID (.refl w₁)) ?_ ?_
      · intro id w₂ hsame
        rw [← hsame.configuration] at hindexed hlookup ⊢
        refine ensures_written (ensures_saveVariable hindexed ?_ ?_ ?_ ?_) _ _ _ _ _ _
        · show (if INTELLIGENCE_SELECTION_NAME = INTELLIGENCE_SELECTION_NAME then some owned
            else none) = some owned
          rw [if_pos rfl]
        · exact hread
        · intro b hb
          rw [hlookup] at hb
          cases hb
        · rw [hlookup]
          rfl
      · exact fun error w₂ hsame => .unwritten hindexed (.of_eq hsame.configuration) error
  · rintro error w₁ ⟨rfl, -⟩
    exact .unwritten hindexed ⟨rfl, rfl⟩ error

/-- **`detach`.** -/
theorem ensures_detach {owned : ConfigurationScope} {current : ConfigurationSecret τ}
    (principal : VerifiedPrincipal) {w : World τ} (hindexed : IntelligenceIndexed w.configuration)
    (hlookup : w.configuration.secretTable.lookup credentialScope owned = some current) :
    (IntelligenceService.detach current principal).Ensures (alone τ) w (fun r w' =>
      Becomes owned { placementOf w.configuration owned with credential := none }
        w.configuration r w'.configuration) := by
  unfold IntelligenceService.detach
  refine ensures_written (Task.Ensures.mono ?_ (ensures_configuration_write rfl)) _ _ _ _ _ _
  intro r w' h
  refine Becomes.of_write hindexed (fun _ => ?_) ?_ h
  · obtain ⟨hcredentials, hafter⟩ := hindexed.credentials.erase hlookup
    refine .of_credential rfl hindexed hcredentials fun scope => ?_
    show ((w.configuration.secretTable.erase current.id).lookup credentialScope scope).map
      ConfigurationSecret.credentialRef = _
    rw [hafter]
    by_cases hscope : scope = owned
    · simp [hscope]
    · simp [hscope]
  · rintro ⟨error, herror⟩
    cases herror

/-- The calls that leave the selections as they are. -/
def credentialCalls : Set (AppOp τ) := {op | op ∈ authorityCalls ∨
  ∃ o : ConfigurationOp τ, op = .configuration o ∧
    ∀ c, (ConfigurationOp.exec c o).2.variableTable = c.variableTable}

theorem ensures_selections {α : Type} {t : Svc τ α}
    (huses : Task.Uses (S := services τ) credentialCalls t) (w : World τ) :
    t.Ensures (alone τ) w (fun _ w' => w'.configuration.variableTable = w.configuration.variableTable) := by
  refine Task.Ensures.of_uses (I := fun w' : World τ =>
    w'.configuration.variableTable = w.configuration.variableTable) ?_ ?_ huses rfl
  · rintro op (⟨o, rfl⟩ | ⟨o, rfl, hkept⟩) w₁ res w₂ hw ⟨choice, hexec⟩
    · rw [(AuthorityOp.exec_stores hexec).configuration, hw]
    · simp only [AppOp.exec] at hexec
      rcases stored_cases hexec with ⟨-, rfl⟩ | ⟨_, -, rfl | rfl⟩
      · exact (hkept _).trans hw
      · exact (hkept _).trans hw
      · exact hw
  · rintro w₁ w₂ hw rfl
    exact hw

omit [Timestamp τ] in
theorem authority_credentials : (authorityCalls : Set (AppOp τ)) ⊆ credentialCalls := fun _ h => .inl h

omit [Timestamp τ] in
theorem uses_credentialWrite {op : ConfigurationOp τ}
    (hkept : ∀ c, (ConfigurationOp.exec c op).2.variableTable = c.variableTable) :
    Task.Uses (S := services τ) credentialCalls op.perform :=
  Task.uses_perform (.inr ⟨op, rfl, hkept⟩)

omit [Timestamp τ] in
theorem credentials_record (type : String) (scope : ConfigurationScope)
    (name kind actor operation status : String) : Task.Uses (S := services τ) credentialCalls
      (ConfigurationService.record (τ := τ) type scope name kind actor operation status) := by
  unfold ConfigurationService.record
  refine Task.Uses.bind (uses_randomUUID.mono authority_credentials) fun id => ?_
  refine Task.Uses.bind (uses_now.mono authority_credentials) fun timestamp => ?_
  exact uses_credentialWrite fun c => rfl

omit [Timestamp τ] in
theorem saveSecret_selections (item : ConfigurationSecret τ) (expected : Option Nat)
    (c : ConfigurationTables τ) :
    (ConfigurationOp.exec c (.saveSecret item expected)).2.variableTable = c.variableTable := rfl

omit [Timestamp τ] in
theorem credentials_bind (owned : ConfigurationScope) (current : Option (ConfigurationSecret τ))
    (ref : String) (principal : VerifiedPrincipal) : Task.Uses (S := services τ) credentialCalls
      (IntelligenceService.bind owned current ref principal) := by
  unfold IntelligenceService.bind
  refine Task.Uses.bind (uses_now.mono authority_credentials) fun timestamp => ?_
  cases current with
  | some current =>
    refine Task.Uses.bind (uses_credentialWrite (saveSecret_selections _ _)) fun _ => ?_
    exact credentials_record _ _ _ _ _ _ _
  | none =>
    refine Task.Uses.bind (uses_randomUUID.mono authority_credentials) fun id => ?_
    refine Task.Uses.bind (uses_credentialWrite (saveSecret_selections _ _)) fun _ => ?_
    exact credentials_record _ _ _ _ _ _ _

omit [Timestamp τ] in
theorem credentials_detach (current : ConfigurationSecret τ) (principal : VerifiedPrincipal) :
    Task.Uses (S := services τ) credentialCalls (IntelligenceService.detach current principal) := by
  unfold IntelligenceService.detach
  refine Task.Uses.bind (uses_credentialWrite fun c => rfl) fun _ => ?_
  exact credentials_record _ _ _ _ _ _ _

/-! ## What is loaded -/

/-- What `load` answers with. -/
structure LoadedFrom (c : ConfigurationTables τ) (owned : ConfigurationScope)
    (current : IntelligenceStored τ) : Prop where
  stored : current.stored = c.variableTable.lookup selectionScope owned
  binding : current.binding = c.secretTable.lookup credentialScope owned
  selection : current.selection = current.stored.bind fun v => selectionOf v.value

omit [Timestamp τ] in
theorem LoadedFrom.placement {c : ConfigurationTables τ} {owned : ConfigurationScope}
    {current : IntelligenceStored τ} (h : LoadedFrom c owned current) : placementOf c owned =
      ⟨current.selection.bind destinationOf, current.binding.map ConfigurationSecret.credentialRef⟩ := by
  unfold placementOf
  rw [h.selection, h.stored, h.binding]

theorem ensures_load (owned : ConfigurationScope) (w : World τ) :
    (IntelligenceService.load owned).Ensures (alone τ) w (fun r w' => w' = w ∧
      ∀ current, r = .ok current → LoadedFrom w.configuration owned current) := by
  unfold IntelligenceService.load
  refine Task.Ensures.bind (ensures_configuration_read rfl) ?_ ?_
  · rintro stored w₁ ⟨rfl, hstored⟩
    refine Task.Ensures.bind (ensures_configuration_read rfl) ?_ ?_
    · rintro binding w₂ ⟨rfl, hbinding⟩
      have hstored := (hstored stored rfl).trans (variableOf_selection _ _)
      have hbinding := (hbinding binding rfl).trans (bindingOf_credential _ _)
      cases stored with
      | none =>
        refine ⟨rfl, fun current hcurrent => ?_⟩
        rw [← Except.ok.inj hcurrent]
        exact ⟨hstored, hbinding, rfl⟩
      | some item =>
        refine Task.Ensures.bind (Task.ensures_ofExcept _ _) ?_ ?_
        · rintro selection w₃ ⟨hread, rfl⟩
          refine ⟨rfl, fun current hcurrent => ?_⟩
          rw [← Except.ok.inj hcurrent]
          refine ⟨hstored, hbinding, ?_⟩
          simp [selectionOf, ← hread, Except.toOption]
        · rintro error w₃ ⟨-, rfl⟩
          refine ⟨rfl, fun current hcurrent => ?_⟩
          cases hcurrent
    · rintro error w₂ ⟨rfl, -⟩
      refine ⟨rfl, fun current hcurrent => ?_⟩
      cases hcurrent
  · rintro error w₁ ⟨rfl, -⟩
    refine ⟨rfl, fun current hcurrent => ?_⟩
    cases hcurrent

/-! ## The effects -/

omit [Timestamp τ] in
theorem Moved.refl {owned : ConfigurationScope} {Q : Placement → Prop} {c : ConfigurationTables τ}
    (hindexed : IntelligenceIndexed c) (h : Q (placementOf c owned)) : Moved owned Q c c where
  indexed := hindexed
  elsewhere _ _ := rfl
  here := h

omit [Timestamp τ] in
/-- What a write moves. -/
theorem Becomes.moved {α : Type} {owned : ConfigurationScope} {Q : Placement → Prop}
    {p' : Placement} {c c' : ConfigurationTables τ} {r : Except JsError α}
    (h : Becomes owned p' c r c') (hdone : Q p')
    (hundone : (∃ error, r = .error error) → Q (placementOf c owned)) : Moved owned Q c c' where
  indexed := h.indexed
  elsewhere := h.elsewhere
  here := by
    rcases h.here with heq | ⟨herror, heq⟩
    · rw [heq]
      exact hdone
    · rw [heq]
      exact hundone herror

omit [Timestamp τ] in
/-- One move after the other. -/
theorem Moved.trans {owned : ConfigurationScope} {Q Q' : Placement → Prop}
    {c c₁ c₂ : ConfigurationTables τ} (h : Moved owned Q c c₁) (h' : Moved owned Q' c₁ c₂) :
    Moved owned Q' c c₂ where
  indexed := h'.indexed
  elsewhere scope hne := (h'.elsewhere scope hne).trans (h.elsewhere scope hne)
  here := h'.here

omit [Timestamp τ] in
/-- What rejects has done no more than what resolves. -/
theorem IntelligenceRequest.MovedBy.rejected {α β : Type} {request : IntelligenceRequest}
    {owned : ConfigurationScope} {c c' : ConfigurationTables τ} {r : Except JsError α}
    (h : request.MovedBy owned c r c') (error : JsError) :
    request.MovedBy owned c (.error error : Except JsError β) c' where
  indexed := h.indexed
  elsewhere := h.elsewhere
  here := h.here.rejected

/-- The tail of an effect, which writes nothing. -/
theorem ensures_viewed {α : Type} {request : IntelligenceRequest} {owned : ConfigurationScope}
    {c : ConfigurationTables τ} {t : Svc τ α} {w : World τ}
    (huses : Task.Uses (S := services τ) authorityCalls t)
    (h : ∀ resolved, Moved owned (request.Moves resolved (placementOf c owned)) c w.configuration) :
    t.Ensures (alone τ) w (fun r w' => request.MovedBy owned c r w'.configuration) := by
  refine ((sameStores_kept w).ensures huses (.refl w)).mono fun r w' hsame => ?_
  show Moved owned _ c w'.configuration
  rw [hsame.configuration]
  exact h _

/-- **A selection is saved** after the credential was seen to. -/
theorem ensures_saved {α : Type} {request : IntelligenceRequest} {owned : ConfigurationScope}
    {c : ConfigurationTables τ} {selection : IntelligenceSelection}
    {stored : Option (ConfigurationVariable τ)} (principal : VerifiedPrincipal)
    {rest : Unit → Svc τ α} {w : World τ}
    (h : Moved owned (request.Moves false (placementOf c owned)) c w.configuration)
    (hread : parseSelection selection.text = .ok selection)
    (hstored : stored = w.configuration.variableTable.lookup selectionScope owned)
    (hsaved : ∀ resolved, request.Moves resolved (placementOf c owned)
      { placementOf w.configuration owned with destination := destinationOf selection })
    (hrest : ∀ u, Task.Uses (S := services τ) authorityCalls (rest u)) :
    ((IntelligenceService.save owned stored selection principal).bind rest).Ensures (alone τ) w
      (fun r w' => request.MovedBy owned c r w'.configuration) := by
  subst hstored
  refine Task.Ensures.bind (ensures_save principal h.indexed hread) ?_ ?_
  · intro u w₁ hbecomes
    refine ensures_viewed (hrest u) fun resolved => h.trans (hbecomes.moved (hsaved resolved) ?_)
    rintro ⟨error, herror⟩
    cases herror
  · intro error w₁ hbecomes
    exact h.trans (hbecomes.moved (hsaved false) fun _ => h.here)

omit [Timestamp τ] in
/-- A credential is kept where it leads to what it led to. -/
theorem destination_kept {provider : IntelligenceProvider} {current : Option IntelligenceSelection}
    {selection : IntelligenceSelection}
    (hprovider : getIntelligenceProvider selection.provider = some provider)
    (h : IntelligenceService.destinationChanged provider current selection = false) :
    current.bind destinationOf = destinationOf selection := by
  cases current with
  | none => cases h
  | some current =>
    simp only [IntelligenceService.destinationChanged, Bool.or_eq_false_iff, bne_eq_false_iff_eq] at h
    simp [destinationOf, h.1, h.2, hprovider]

section set

variable {α : Type} {owned : ConfigurationScope} {selection : IntelligenceSelection}
  {destination : Destination} {stored : Option (ConfigurationVariable τ)}
  {rest : Unit → Svc τ α} {w : World τ}

/-- A new credential is bound, and then the selection is saved. -/
theorem ensures_bound {binding : Option (ConfigurationSecret τ)} (ref : String)
    (principal : VerifiedPrincipal) (hindexed : IntelligenceIndexed w.configuration)
    (hread : parseSelection selection.text = .ok selection)
    (hstored : stored = w.configuration.variableTable.lookup selectionScope owned)
    (hbinding : binding = w.configuration.secretTable.lookup credentialScope owned)
    (hdestination : destinationOf selection = some destination)
    (hrest : ∀ u, Task.Uses (S := services τ) authorityCalls (rest u)) :
    ((IntelligenceService.bind owned binding ref principal).bind fun _ =>
      (IntelligenceService.save owned stored selection principal).bind rest).Ensures (alone τ) w
      (fun r w' => (IntelligenceRequest.set destination (some ref)).MovedBy owned w.configuration r
        w'.configuration) := by
  subst hbinding
  refine Task.Ensures.bind (ensures_and (ensures_bind ref principal hindexed)
    (ensures_selections (credentials_bind _ _ _ _) w)) ?_ ?_
  · rintro u w₁ ⟨hbecomes, hselections⟩
    have hbound : placementOf w₁.configuration owned =
        { placementOf w.configuration owned with credential := some ref } := by
      rcases hbecomes.here with heq | ⟨⟨error, herror⟩, -⟩
      · exact heq
      · cases herror
    refine ensures_saved principal ⟨hbecomes.indexed, hbecomes.elsewhere, ?_⟩ hread ?_ ?_ hrest
    · exact .inr ⟨rfl, .inr hbound⟩
    · rw [hselections, hstored]
    · intro resolved
      left
      rw [hbound, hdestination]
  · rintro error w₁ ⟨hbecomes, -⟩
    exact hbecomes.moved (.inr ⟨rfl, .inr rfl⟩) fun _ => .inr ⟨rfl, .inl rfl⟩

/-- The credential is dropped, and then the selection is saved. -/
theorem ensures_dropped {current : ConfigurationSecret τ} (principal : VerifiedPrincipal)
    (hindexed : IntelligenceIndexed w.configuration)
    (hread : parseSelection selection.text = .ok selection)
    (hstored : stored = w.configuration.variableTable.lookup selectionScope owned)
    (hlookup : w.configuration.secretTable.lookup credentialScope owned = some current)
    (hrest : ∀ u, Task.Uses (S := services τ) authorityCalls (rest u)) :
    ((IntelligenceService.detach current principal).bind fun _ =>
      (IntelligenceService.save owned stored selection principal).bind rest).Ensures (alone τ) w
      (fun r w' => (IntelligenceRequest.set destination none).MovedBy owned w.configuration r
        w'.configuration) := by
  refine Task.Ensures.bind (ensures_and (ensures_detach principal hindexed hlookup)
    (ensures_selections (credentials_detach _ _) w)) ?_ ?_
  · rintro u w₁ ⟨hbecomes, hselections⟩
    have hdropped : placementOf w₁.configuration owned =
        { placementOf w.configuration owned with credential := none } := by
      rcases hbecomes.here with heq | ⟨⟨error, herror⟩, -⟩
      · exact heq
      · cases herror
    have hnone : (placementOf w₁.configuration owned).credential = none := by rw [hdropped]
    refine ensures_saved principal ⟨hbecomes.indexed, hbecomes.elsewhere, ?_⟩ hread ?_ ?_ hrest
    · exact .inl hnone
    · rw [hselections, hstored]
    · exact fun resolved => .inl hnone
  · rintro error w₁ ⟨hbecomes, -⟩
    exact hbecomes.moved (.inl rfl) fun _ => .inr rfl

/-- The credential is kept, or there is none. -/
theorem ensures_kept (principal : VerifiedPrincipal)
    (hindexed : IntelligenceIndexed w.configuration)
    (hread : parseSelection selection.text = .ok selection)
    (hstored : stored = w.configuration.variableTable.lookup selectionScope owned)
    (hkept : (placementOf w.configuration owned).credential = none ∨
      (placementOf w.configuration owned).destination = destinationOf selection)
    (hrest : ∀ u, Task.Uses (S := services τ) authorityCalls (rest u)) :
    ((IntelligenceService.save owned stored selection principal).bind rest).Ensures (alone τ) w
      (fun r w' => (IntelligenceRequest.set destination none).MovedBy owned w.configuration r
        w'.configuration) := by
  refine ensures_saved principal (Moved.refl hindexed ?_) hread hstored ?_ hrest
  · exact .inr rfl
  · intro resolved
    rcases hkept with hnone | hsame
    · exact .inl hnone
    · right
      rw [← hsame]

end set

/-- **The effect of `set`.** -/
theorem ensures_setEffect {owned : ConfigurationScope} {selection : IntelligenceSelection}
    {provider : IntelligenceProvider} (ref : Option String) (principal : VerifiedPrincipal)
    {w : World τ} (hindexed : IntelligenceIndexed w.configuration)
    (hread : parseSelection selection.text = .ok selection)
    (hprovider : getIntelligenceProvider selection.provider = some provider) :
    (IntelligenceService.setEffect owned selection ref principal).Ensures (alone τ) w (fun r w' =>
      (IntelligenceRequest.set ⟨provider.id, resolveEndpoint provider selection.endpoint⟩
        ref).MovedBy owned w.configuration r w'.configuration) := by
  have hdestination : destinationOf selection =
      some ⟨provider.id, resolveEndpoint provider selection.endpoint⟩ := by
    simp [destinationOf, hprovider]
  have hknown : knownProvider selection.provider "credential" = .ok provider := by
    simp [knownProvider, hprovider]
  have hrefused : ∀ (request : IntelligenceRequest) (error : JsError),
      request.MovedBy owned w.configuration
        (.error error : Except JsError (IntelligenceConfigurationView τ)) w.configuration :=
    fun request error => .refl hindexed (request.moves_refl _)
  have hview : ∀ (configured : Bool) (u : Unit), Task.Uses (S := services τ) authorityCalls
      ((now (τ := τ)).bind fun updatedAt =>
        check (intelligenceView owned.environment selection updatedAt configured)) :=
    fun configured u => Task.Uses.bind uses_now fun updatedAt => Task.uses_settled _ _
  unfold IntelligenceService.setEffect
  refine Task.Ensures.bind (ensures_load owned w) ?_ ?_
  · rintro current w₁ ⟨rfl, hcurrent⟩
    obtain ⟨stored, binding, before⟩ := current
    obtain ⟨hstored, hbinding, -⟩ := hcurrent _ rfl
    have hplacement := (hcurrent _ rfl).placement
    dsimp only at hplacement hstored hbinding ⊢
    rw [hknown]
    show Task.Ensures (alone τ) (if _ then _ else _) w₁ _
    split
    · exact hrefused _ _
    · show Task.Ensures (alone τ) (if _ then _ else _) w₁ _
      split
      · exact hrefused _ _
      · cases ref with
        | some ref =>
          have hbound := fun configured => ensures_bound ref principal hindexed hread hstored hbinding
            hdestination (hview configured)
          cases binding with
          | none => exact hbound _
          | some binding => exact hbound _
        | none =>
          cases binding with
          | none =>
            have hnone : (placementOf w₁.configuration owned).credential = none := by
              rw [hplacement]
              rfl
            exact ensures_kept principal hindexed hread hstored (.inl hnone) (hview _)
          | some binding =>
            show Task.Ensures (alone τ) (if _ then _ else _) w₁ _
            split
            · next hkeep =>
              have hsame : (placementOf w₁.configuration owned).destination = destinationOf selection := by
                rw [hplacement]
                exact destination_kept hprovider (by simpa using hkeep)
              exact ensures_kept principal hindexed hread hstored (.inr hsame) (hview _)
            · exact ensures_dropped principal hindexed hread hstored hbinding.symm (hview _)
  · rintro error w₁ ⟨rfl, -⟩
    exact hrefused _ error

/-- **The effect of `setCredential`.** -/
theorem ensures_setCredentialEffect {owned : ConfigurationScope} (ref : String)
    (principal : VerifiedPrincipal) {w : World τ} (hindexed : IntelligenceIndexed w.configuration) :
    (IntelligenceService.setCredentialEffect owned ref principal).Ensures (alone τ) w (fun r w' =>
      (IntelligenceRequest.setCredential ref).MovedBy owned w.configuration r w'.configuration) := by
  have hrefused : ∀ (error : JsError), (IntelligenceRequest.setCredential ref).MovedBy owned
      w.configuration (.error error : Except JsError (IntelligenceConfigurationView τ))
      w.configuration := fun error => .refl hindexed (.inl rfl)
  unfold IntelligenceService.setCredentialEffect
  refine Task.Ensures.bind (ensures_load owned w) ?_ ?_
  · rintro current w₁ ⟨rfl, hcurrent⟩
    obtain ⟨stored, binding, before⟩ := current
    obtain ⟨-, hbinding, -⟩ := hcurrent _ rfl
    dsimp only at hbinding ⊢
    subst hbinding
    split
    · refine Task.Ensures.bind (Task.ensures_ofExcept _ _) ?_ ?_
      · rintro provider w₂ ⟨-, rfl⟩
        split
        · exact hrefused _
        · refine Task.Ensures.bind (ensures_bind ref principal hindexed) ?_ ?_
          · intro u w₃ hbecomes
            refine ensures_viewed (Task.uses_settled _ _) fun resolved => ?_
            exact hbecomes.moved (.inr rfl) fun _ => .inl rfl
          · intro error w₃ hbecomes
            exact hbecomes.moved (.inr rfl) fun _ => .inl rfl
      · rintro error w₂ ⟨-, rfl⟩
        exact hrefused error
    · exact hrefused _
  · rintro error w₁ ⟨rfl, -⟩
    exact hrefused error

/-- **The effect of `removeCredential`.** -/
theorem ensures_removeCredentialEffect {owned : ConfigurationScope} (principal : VerifiedPrincipal)
    {w : World τ} (hindexed : IntelligenceIndexed w.configuration) :
    (IntelligenceService.removeCredentialEffect owned principal).Ensures (alone τ) w (fun r w' =>
      IntelligenceRequest.removeCredential.MovedBy owned w.configuration r w'.configuration) := by
  have hkept : ∀ (r : Except JsError (IntelligenceConfigurationView τ)),
      IntelligenceRequest.removeCredential.MovedBy owned w.configuration r w.configuration :=
    fun r => .refl hindexed (.inl rfl)
  unfold IntelligenceService.removeCredentialEffect
  refine Task.Ensures.bind (ensures_load owned w) ?_ ?_
  · rintro current w₁ ⟨rfl, hcurrent⟩
    obtain ⟨stored, binding, before⟩ := current
    obtain ⟨-, hbinding, -⟩ := hcurrent _ rfl
    dsimp only at hbinding ⊢
    split
    · refine Task.Ensures.bind (Task.ensures_ofExcept _ _) ?_ ?_
      · rintro provider w₂ ⟨-, rfl⟩
        split
        · exact hkept _
        · cases binding with
          | none => exact hkept _
          | some current =>
            refine Task.Ensures.bind (ensures_detach principal hindexed hbinding.symm) ?_ ?_
            · intro u w₃ hbecomes
              refine ensures_viewed (Task.uses_settled _ _) fun resolved => ?_
              exact hbecomes.moved (.inr rfl) fun _ => .inl rfl
            · intro error w₃ hbecomes
              exact hbecomes.moved (.inr rfl) fun _ => .inl rfl
      · rintro error w₂ ⟨-, rfl⟩
        exact hkept _
    · exact hkept _
  · rintro error w₁ ⟨rfl, -⟩
    exact hkept _

end rows

/-! ## The calls -/

/-- A call of the service. -/
inductive IntelligenceCall where
  | catalog (scope : IntelligenceScope)
  | get (scope : IntelligenceScope)
  | set (input : IntelligenceWriteInput)
  | setCredential (input : IntelligenceCredentialInput)
  | removeCredential (scope : IntelligenceScope)
  | resolveRuntime (scope : IntelligenceScope)

/-- The scope it names. -/
def IntelligenceCall.scope : IntelligenceCall → IntelligenceScope
  | .catalog scope | .get scope | .removeCredential scope | .resolveRuntime scope => scope
  | .set input => { environment := input.environment, tenantId := input.tenantId
                    applicationId := input.applicationId, raw := input.raw }
  | .setCredential input => input.toIntelligenceScope

section calls

variable [Timestamp τ]

/-- A call as it is made; of its result only the runtime's configuration is kept. -/
def IntelligenceService.perform (service : IntelligenceService) (caller : PrincipalInput) :
    IntelligenceCall → Svc τ (Option IntelligenceRuntimeConfiguration)
  | .catalog scope => (service.catalog scope caller).bind fun _ => pure none
  | .get scope => (service.get scope caller).bind fun _ => pure none
  | .set input => (service.set input caller).bind fun _ => pure none
  | .setCredential input => (service.setCredential input caller).bind fun _ => pure none
  | .removeCredential scope => (service.removeCredential scope caller).bind fun _ => pure none
  | .resolveRuntime scope => service.resolveRuntime scope caller

/-- The scope a call is about: the caller's tenant, in the application of the gateway. -/
def IntelligenceService.OwnedAs (service : IntelligenceService) (scope : IntelligenceScope)
    (caller : PrincipalInput) (owned : ConfigurationScope) : Prop :=
  ∃ gateway principal hasScopes, service.authority = some gateway ∧
    caller = .object principal hasScopes ∧ owned.tenantId = principal.tenantId ∧
    owned.applicationId = gateway.application ∧
    environmentOf (scope.environment.orElse (.str "production")) = some owned.environment

/-- What a call asks for. -/
def IntelligenceCall.Asks (newUrl : String → Option EndpointUrl) :
    IntelligenceCall → IntelligenceRequest → Prop
  | .catalog _, request | .get _, request | .resolveRuntime _, request => request = .read
  | .set input, request => ∃ selection destination ref, validateSelection newUrl input = .ok selection ∧
      destinationOf selection = some destination ∧
      optionalCredentialRef input.credentialRef = .ok ref ∧ request = .set destination ref
  | .setCredential input, request => ∃ ref,
      requireCredentialRef input.credentialRef "credentialRef" = .ok ref ∧ request = .setCredential ref
  | .removeCredential _, request => request = .removeCredential

variable {service : IntelligenceService}

theorem ensures_owned (scope : IntelligenceScope) (caller : PrincipalInput) (w : World τ) :
    (service.own scope caller).Ensures (alone τ) w (fun r w' => w'.configuration = w.configuration ∧
      ∀ owned, r = .ok owned → service.OwnedAs scope caller owned.2) := by
  have huses : Task.Uses (S := services τ) authorityCalls (service.own (τ := τ) scope caller) := by
    unfold IntelligenceService.own ConfigurationService.resolveOwnership
    refine uses_check fun gateway => Task.Uses.bind (uses_requireVerifiedPrincipal _) fun _ => ?_
    refine uses_check fun _ => uses_check fun tenantId => ?_
    split
    · trivial
    · split <;> trivial
  have hyields : Task.Yields (S := services τ) (fun owned => service.OwnedAs scope caller owned.2)
      (service.own (τ := τ) scope caller) := by
    unfold IntelligenceService.own ConfigurationService.resolveOwnership
    refine (Task.yields_ofExcept (Q := fun gateway => service.authority = some gateway) ?_).bind ?_
    · intro gateway hgateway
      unfold IntelligenceService.gateway at hgateway
      split at hgateway
      · next hauthority => rw [hauthority, Except.ok.inj hgateway]
      · cases hgateway
    · intro gateway hgateway
      refine (yields_requireVerifiedPrincipal caller).bind ?_
      rintro principal ⟨hasScopes, hcaller⟩
      refine Task.Yields.of_bind fun _ => ?_
      refine (Task.yields_ofExcept (Q := fun tenantId => tenantId = principal.tenantId) ?_).bind ?_
      · exact fun tenantId htenant => (resolveTenant_eq_ok.mp htenant).1
      · rintro tenantId rfl
        split
        · trivial
        · split
          · trivial
          · next environment henvironment =>
            exact ⟨gateway, principal, hasScopes, hgateway, hcaller, rfl, rfl, henvironment⟩
  refine (((sameStores_kept w).ensures huses (.refl w)).yields hyields).mono fun r w' h => ?_
  exact ⟨h.1.configuration, h.2⟩

/-- What a call may leave: it moved the placement of its scope as what it asks for may, or
nothing was written. -/
def IntelligenceService.Performs (service : IntelligenceService) (call : IntelligenceCall)
    (caller : PrincipalInput) (c : ConfigurationTables τ) (resolved : Bool)
    (c' : ConfigurationTables τ) : Prop :=
  (∃ owned request, service.OwnedAs call.scope caller owned ∧ call.Asks service.newUrl request ∧
    Moved owned (request.Moves resolved (placementOf c owned)) c c') ∨ c' = c

/-- The gateway leaves the configuration alone. -/
theorem configuration_kept (R : ConfigurationTables τ → Prop) :
    KeptByGateway (alone τ) fun w => R w.configuration where
  calls := by
    rintro op hop w res w' hw ⟨choice, hexec⟩
    obtain ⟨o, rfl⟩ := gatewayCalls_subset hop
    rw [(AuthorityOp.exec_stores hexec).configuration]
    exact hw
  between := by
    rintro w w' hw rfl
    exact hw

/-- An effect under the gateway. -/
theorem ensures_executed {α : Type} {owned : ConfigurationScope} {request : IntelligenceRequest}
    {gateway : ServiceGateway} {name : String} {input : PrincipalInput} {resource : ServiceResource}
    {options : ExecuteOptions} {effect : ServiceExecutionContext τ → EffectTools τ → Svc τ α}
    {w : World τ} (hindexed : IntelligenceIndexed w.configuration)
    (heffect : ∀ context tools (w₁ : World τ), IntelligenceIndexed w₁.configuration →
      (effect context tools).Ensures (alone τ) w₁ (fun r w' =>
        request.MovedBy owned w₁.configuration r w'.configuration)) :
    (gateway.execute name input resource options effect).Ensures (alone τ) w
      (fun r w' => request.MovedBy owned w.configuration r w'.configuration) := by
  have haround : Around (alone τ) (fun w₁ => w₁.configuration = w.configuration)
      (fun (r : Except JsError α) w' => request.MovedBy owned w.configuration r w'.configuration) := by
    constructor
    · exact configuration_kept fun c => c = w.configuration
    · exact fun r => configuration_kept fun c => request.MovedBy owned w.configuration r c
    · intro error w₁ hw₁
      rw [hw₁]
      exact .refl hindexed (request.moves_refl _)
    · exact fun r error w₁ hmoved => hmoved.rejected error
  refine ensures_execute_around haround (fun context tools w₁ hw₁ => ?_) rfl
  rw [← hw₁] at hindexed ⊢
  exact heffect context tools w₁ hindexed

/-- A call that reads. -/
theorem ensures_read {α : Type} {owned : ConfigurationScope} {t : Svc τ α} {w : World τ}
    (hindexed : IntelligenceIndexed w.configuration)
    (h : t.Ensures (alone τ) w fun _ w' => w' = w) :
    t.Ensures (alone τ) w (fun r w' =>
      IntelligenceRequest.read.MovedBy owned w.configuration r w'.configuration) := by
  refine h.mono ?_
  rintro r w' rfl
  exact .refl hindexed rfl

theorem ensures_resolveEffect (owned : ConfigurationScope) (w : World τ) :
    (IntelligenceService.resolveEffect owned).Ensures (alone τ) w (fun r w' => w' = w ∧
      ∀ runtime, r = .ok (some runtime) → placementOf w.configuration owned =
        ⟨some ⟨runtime.provider, runtime.endpoint⟩, runtime.credentialRef⟩) := by
  unfold IntelligenceService.resolveEffect
  refine Task.Ensures.bind (ensures_load owned w) ?_ ?_
  · rintro current w₁ ⟨rfl, hcurrent⟩
    obtain ⟨stored, binding, selection⟩ := current
    have hplacement := (hcurrent _ rfl).placement
    cases selection with
    | none =>
      refine ⟨rfl, fun runtime hruntime => ?_⟩
      cases hruntime
    | some selection =>
      refine Task.Ensures.bind (Task.ensures_ofExcept _ _) ?_ ?_
      · rintro provider w₂ ⟨hknown, rfl⟩
        refine ⟨rfl, fun runtime hruntime => ?_⟩
        have hprovider : getIntelligenceProvider selection.provider = some provider := by
          unfold knownProvider at hknown
          split at hknown
          · next p hp => rw [hp, Except.ok.inj hknown]
          · cases hknown
        rw [hplacement, ← Option.some.inj (Except.ok.inj hruntime)]
        simp [destinationOf, hprovider]
      · rintro error w₂ ⟨-, rfl⟩
        refine ⟨rfl, fun runtime hruntime => ?_⟩
        cases hruntime
  · rintro error w₁ ⟨rfl, -⟩
    refine ⟨rfl, fun runtime hruntime => ?_⟩
    cases hruntime

/-- A check before what follows. -/
theorem ensures_checked {α β : Type} {r : Except JsError α} {f : α → Svc τ β} {w : World τ}
    {Q : Except JsError β → World τ → Prop} (hok : ∀ a, r = .ok a → (f a).Ensures (alone τ) w Q)
    (herr : ∀ error, Q (.error error) w) : ((check r).bind f).Ensures (alone τ) w Q := by
  refine Task.Ensures.bind (Task.ensures_ofExcept _ _) ?_ ?_
  · rintro a w₁ ⟨ha, rfl⟩
    exact hok a ha.symm
  · rintro error w₁ ⟨-, rfl⟩
    exact herr error

/-- A call knows whose configuration it is about. -/
theorem ensures_ownedCall {α : Type} (call : IntelligenceCall) {caller : PrincipalInput}
    {rest : VerifiedPrincipal × ConfigurationScope → Svc τ α} {w : World τ}
    (hrest : ∀ principal owned, service.OwnedAs call.scope caller owned →
      ∀ w₁ : World τ, w₁.configuration = w.configuration →
        (rest (principal, owned)).Ensures (alone τ) w₁ (fun r w' =>
          service.Performs call caller w₁.configuration r.isOk w'.configuration)) :
    ((service.own call.scope caller).bind rest).Ensures (alone τ) w (fun r w' =>
      service.Performs call caller w.configuration r.isOk w'.configuration) := by
  refine Task.Ensures.bind (ensures_owned call.scope caller w) ?_ ?_
  · rintro ⟨principal, owned⟩ w₁ ⟨hsame, howned⟩
    rw [← hsame]
    exact hrest principal owned (howned _ rfl) w₁ hsame
  · rintro error w₁ ⟨hsame, -⟩
    exact .inr hsame

/-- An effect of a call under the gateway. -/
theorem ensures_performed {α : Type} {call : IntelligenceCall} {caller : PrincipalInput}
    {owned : ConfigurationScope} {request : IntelligenceRequest} {name : String}
    {input : PrincipalInput} {resource : ServiceResource} {options : ExecuteOptions}
    {effect : ServiceExecutionContext τ → EffectTools τ → Svc τ α} {w : World τ}
    (howned : service.OwnedAs call.scope caller owned) (hasks : call.Asks service.newUrl request)
    (hindexed : IntelligenceIndexed w.configuration)
    (heffect : ∀ context tools (w₁ : World τ), IntelligenceIndexed w₁.configuration →
      (effect context tools).Ensures (alone τ) w₁ (fun r w' =>
        request.MovedBy owned w₁.configuration r w'.configuration)) :
    ((check service.gateway).bind fun gateway =>
      gateway.execute name input resource options effect).Ensures (alone τ) w (fun r w' =>
        service.Performs call caller w.configuration r.isOk w'.configuration) := by
  refine ensures_checked (fun gateway _ => ?_) (fun error => .inr rfl)
  refine (ensures_executed hindexed heffect).mono fun r w' hmoved => ?_
  exact .inl ⟨owned, request, howned, hasks, hmoved⟩

theorem ensures_set (hurl : ParsesAbsolute service.newUrl) (input : IntelligenceWriteInput)
    (caller : PrincipalInput) {w : World τ} (hindexed : IntelligenceIndexed w.configuration) :
    (service.set input caller).Ensures (alone τ) w (fun r w' =>
      service.Performs (.set input) caller w.configuration r.isOk w'.configuration) := by
  unfold IntelligenceService.set
  refine ensures_checked (fun _ _ => ?_) (fun error => .inr rfl)
  refine ensures_ownedCall (.set input) fun principal owned howned w₁ hsame => ?_
  rw [← hsame] at hindexed
  refine ensures_checked (fun selection hselection => ?_) (fun error => .inr rfl)
  refine ensures_checked (fun ref href => ?_) (fun error => .inr rfl)
  obtain ⟨provider, haccepted⟩ := validateSelection_ok hselection
  obtain ⟨hpresent, -⟩ := resolveEndpoint_accepted hurl haccepted.found haccepted.endpoint
  have hdestination : destinationOf selection =
      some ⟨provider.id, resolveEndpoint provider selection.endpoint⟩ := by
    simp [destinationOf, haccepted.found]
  refine ensures_performed howned ⟨selection, _, ref, hselection, hdestination, href, rfl⟩ hindexed ?_
  intro context tools w₂ hindexed₂
  exact ensures_setEffect ref principal hindexed₂ (parseSelection_text hpresent) haccepted.found

theorem ensures_setCredential (input : IntelligenceCredentialInput) (caller : PrincipalInput)
    {w : World τ} (hindexed : IntelligenceIndexed w.configuration) :
    (service.setCredential input caller).Ensures (alone τ) w (fun r w' =>
      service.Performs (.setCredential input) caller w.configuration r.isOk w'.configuration) := by
  unfold IntelligenceService.setCredential
  refine ensures_checked (fun _ _ => ?_) (fun error => .inr rfl)
  refine ensures_ownedCall (.setCredential input) fun principal owned howned w₁ hsame => ?_
  rw [← hsame] at hindexed
  refine ensures_checked (fun ref href => ?_) (fun error => .inr rfl)
  refine ensures_performed howned ⟨ref, href, rfl⟩ hindexed ?_
  exact fun context tools w₂ hindexed₂ => ensures_setCredentialEffect ref principal hindexed₂

theorem ensures_removeCredential (scope : IntelligenceScope) (caller : PrincipalInput)
    {w : World τ} (hindexed : IntelligenceIndexed w.configuration) :
    (service.removeCredential scope caller).Ensures (alone τ) w (fun r w' =>
      service.Performs (.removeCredential scope) caller w.configuration r.isOk
        w'.configuration) := by
  unfold IntelligenceService.removeCredential
  refine ensures_ownedCall (.removeCredential scope) fun principal owned howned w₁ hsame => ?_
  rw [← hsame] at hindexed
  refine ensures_performed howned rfl hindexed ?_
  exact fun context tools w₂ hindexed₂ => ensures_removeCredentialEffect principal hindexed₂

theorem ensures_catalog (scope : IntelligenceScope) (caller : PrincipalInput) {w : World τ}
    (hindexed : IntelligenceIndexed w.configuration) :
    (service.catalog scope caller).Ensures (alone τ) w (fun r w' =>
      service.Performs (.catalog scope) caller w.configuration r.isOk w'.configuration) := by
  unfold IntelligenceService.catalog
  refine ensures_ownedCall (.catalog scope) fun principal owned howned w₁ hsame => ?_
  rw [← hsame] at hindexed
  refine ensures_performed howned rfl hindexed ?_
  exact fun context tools w₂ hindexed₂ => ensures_read hindexed₂ rfl

theorem ensures_get (scope : IntelligenceScope) (caller : PrincipalInput) {w : World τ}
    (hindexed : IntelligenceIndexed w.configuration) :
    (service.get scope caller).Ensures (alone τ) w (fun r w' =>
      service.Performs (.get scope) caller w.configuration r.isOk w'.configuration) := by
  unfold IntelligenceService.get
  refine ensures_ownedCall (.get scope) fun principal owned howned w₁ hsame => ?_
  rw [← hsame] at hindexed
  refine ensures_performed howned rfl hindexed fun context tools w₂ hindexed₂ => ?_
  refine ensures_read hindexed₂ (Task.Ensures.bind (ensures_load owned w₂) ?_ (fun _ _ h => h.1))
  rintro current w₃ ⟨rfl, -⟩
  split <;> exact rfl

theorem ensures_resolveRuntime (scope : IntelligenceScope) (caller : PrincipalInput) {w : World τ}
    (hindexed : IntelligenceIndexed w.configuration) :
    (service.resolveRuntime scope caller).Ensures (alone τ) w (fun r w' =>
      service.Performs (.resolveRuntime scope) caller w.configuration r.isOk w'.configuration) := by
  unfold IntelligenceService.resolveRuntime
  refine ensures_ownedCall (.resolveRuntime scope) fun principal owned howned w₁ hsame => ?_
  rw [← hsame] at hindexed
  refine ensures_performed howned rfl hindexed fun context tools w₂ hindexed₂ => ?_
  exact ensures_read hindexed₂ ((ensures_resolveEffect owned w₂).mono fun _ _ h => h.1)

/-- **Every call performs what it asks for, or nothing.** -/
theorem ensures_perform (hurl : ParsesAbsolute service.newUrl) (call : IntelligenceCall)
    (caller : PrincipalInput) {w : World τ} (hindexed : IntelligenceIndexed w.configuration) :
    (service.perform caller call).Ensures (alone τ) w (fun r w' =>
      service.Performs call caller w.configuration r.isOk w'.configuration) := by
  cases call with
  | catalog scope =>
    exact Task.Ensures.bind (ensures_catalog scope caller hindexed) (fun _ _ h => h) fun _ _ h => h
  | get scope =>
    exact Task.Ensures.bind (ensures_get scope caller hindexed) (fun _ _ h => h) fun _ _ h => h
  | set input =>
    exact Task.Ensures.bind (ensures_set hurl input caller hindexed) (fun _ _ h => h) fun _ _ h => h
  | setCredential input =>
    exact Task.Ensures.bind (ensures_setCredential input caller hindexed) (fun _ _ h => h)
      fun _ _ h => h
  | removeCredential scope =>
    exact Task.Ensures.bind (ensures_removeCredential scope caller hindexed) (fun _ _ h => h)
      fun _ _ h => h
  | resolveRuntime scope => exact ensures_resolveRuntime scope caller hindexed

/-- **What the runtime is handed** is what is placed. -/
theorem ensures_runtime (scope : IntelligenceScope) (caller : PrincipalInput) (w : World τ) :
    (service.resolveRuntime scope caller).Ensures (alone τ) w (fun r _ =>
      ∀ runtime, r = .ok (some runtime) → ∃ owned, service.OwnedAs scope caller owned ∧
        placementOf w.configuration owned =
          ⟨some ⟨runtime.provider, runtime.endpoint⟩, runtime.credentialRef⟩) := by
  have hno : ∀ error : JsError, ∀ runtime : IntelligenceRuntimeConfiguration,
      (Except.error error : Except JsError (Option IntelligenceRuntimeConfiguration)) =
        .ok (some runtime) → ∃ owned, service.OwnedAs scope caller owned ∧
        placementOf w.configuration owned =
          ⟨some ⟨runtime.provider, runtime.endpoint⟩, runtime.credentialRef⟩ := by
    intro error runtime h
    cases h
  unfold IntelligenceService.resolveRuntime
  refine Task.Ensures.bind (ensures_owned scope caller w) ?_ (fun error _ _ => hno error)
  rintro ⟨principal, owned⟩ w₁ ⟨hsame, howned⟩
  refine ensures_checked (fun gateway _ => ?_) hno
  refine (ensures_execute_keeping (Q := fun found : Option IntelligenceRuntimeConfiguration =>
    ∀ runtime, found = some runtime → placementOf w.configuration owned =
      ⟨some ⟨runtime.provider, runtime.endpoint⟩, runtime.credentialRef⟩)
    (configuration_kept fun c => c = w.configuration) ?_ hsame).mono ?_
  · intro context tools w₂ hw₂
    refine (ensures_resolveEffect owned w₂).mono ?_
    rintro r w₃ ⟨rfl, hresolved⟩
    refine ⟨hw₂, ?_⟩
    rintro found rfl runtime rfl
    rw [← hw₂]
    exact hresolved runtime rfl
  · rintro r w₂ ⟨-, hfound⟩ runtime rfl
    exact ⟨owned, howned _ rfl, hfound _ rfl runtime rfl⟩

end calls

/-! ## Runs -/

/-- What others write: whatever they like, except for the rows of the intelligence service. -/
structure LeavesPlacements (c c' : ConfigurationTables τ) : Prop where
  indexed : IntelligenceIndexed c'
  selections : ∀ k v owned, selectionScope v = some owned →
    (c'.variableTable.get k = some v ↔ c.variableTable.get k = some v)
  credentials : ∀ k s owned, credentialScope s = some owned →
    (c'.secretTable.get k = some s ↔ c.secretTable.get k = some s)

theorem LeavesPlacements.placement {c c' : ConfigurationTables τ} (h : LeavesPlacements c c')
    (hindexed : IntelligenceIndexed c) (owned : ConfigurationScope) :
    placementOf c' owned = placementOf c owned := by
  unfold placementOf
  rw [(hindexed.selections.unique.congr h.selections).2,
    (hindexed.credentials.unique.congr h.credentials).2]

/-- A call that was made, what was placed before it, and whether it resolved. -/
structure IntelligenceEvent (τ : Type) where
  call : IntelligenceCall
  caller : PrincipalInput
  before : ConfigurationTables τ
  resolved : Bool

/-- **The call supplied this credential for this destination.** -/
def IntelligenceEvent.Supplies (service : IntelligenceService) (event : IntelligenceEvent τ)
    (owned : ConfigurationScope) (destination : Destination) (ref : String) : Prop :=
  service.OwnedAs event.call.scope event.caller owned ∧
  ((∃ asked, event.call.Asks service.newUrl (.set asked (some ref)) ∧
      (destination = asked ∨
        -- the selection was not saved after the credential
        (event.resolved = false ∧ (placementOf event.before owned).destination = some destination))) ∨
    event.call.Asks service.newUrl (.setCredential ref) ∧
      (placementOf event.before owned).destination = some destination)

/-- The calls of the service, one after the other, and what others do in between. -/
inductive IntelligenceRun [Timestamp τ] (service : IntelligenceService) (w : World τ) :
    List (IntelligenceEvent τ) → World τ → Prop where
  | start : IntelligenceRun service w [] w
  | call {events : List (IntelligenceEvent τ)} {w₁ w₂ : World τ} {caller : PrincipalInput}
      {r : Except JsError (Option IntelligenceRuntimeConfiguration)} (call : IntelligenceCall) :
      IntelligenceRun service w events w₁ →
      Task.Settles (alone τ) (service.perform caller call) w₁ r w₂ →
      IntelligenceRun service w (⟨call, caller, w₁.configuration, r.isOk⟩ :: events) w₂
  | others {events : List (IntelligenceEvent τ)} {w₁ w₂ : World τ} :
      IntelligenceRun service w events w₁ →
      LeavesPlacements w₁.configuration w₂.configuration → IntelligenceRun service w events w₂

section runs

variable [Timestamp τ] {service : IntelligenceService}

omit [Timestamp τ] in
/-- **One call.** A credential and a destination stand together after it if they did
before, or if the call supplied the one for the other. -/
theorem placed_step {call : IntelligenceCall} {caller : PrincipalInput}
    {c c' : ConfigurationTables τ} {resolved : Bool} {owned : ConfigurationScope}
    {destination : Destination} {ref : String}
    (h : service.Performs call caller c resolved c')
    (hplaced : placementOf c' owned = ⟨some destination, some ref⟩) :
    placementOf c owned = ⟨some destination, some ref⟩ ∨
      IntelligenceEvent.Supplies service ⟨call, caller, c, resolved⟩ owned destination ref := by
  rcases h with ⟨scope, request, howned, hasks, hmoved⟩ | rfl
  · by_cases hscope : owned = scope
    · subst hscope
      have hmoves := hmoved.here
      rw [hplaced] at hmoves
      cases request with
      | read => exact .inl hmoves.symm
      | set asked asking =>
        cases asking with
        | none =>
          rcases hmoves with hnone | hsame
          · cases hnone
          · exact .inl hsame.symm
        | some supplied =>
          rcases hmoves with hset | ⟨hrejected, hsame | hbound⟩
          · obtain ⟨hdestination, href⟩ := Placement.mk.inj hset
            obtain rfl := Option.some.inj hdestination
            obtain rfl := Option.some.inj href
            exact .inr ⟨howned, .inl ⟨_, hasks, .inl rfl⟩⟩
          · exact .inl hsame.symm
          · obtain ⟨hdestination, href⟩ := Placement.mk.inj hbound
            obtain rfl := Option.some.inj href
            exact .inr ⟨howned, .inl ⟨asked, hasks, .inr ⟨hrejected, hdestination.symm⟩⟩⟩
      | setCredential supplied =>
        rcases hmoves with hsame | hbound
        · exact .inl hsame.symm
        · obtain ⟨hdestination, href⟩ := Placement.mk.inj hbound
          obtain rfl := Option.some.inj href
          exact .inr ⟨howned, .inr ⟨hasks, hdestination.symm⟩⟩
      | removeCredential =>
        rcases hmoves with hsame | hdropped
        · exact .inl hsame.symm
        · obtain ⟨-, hnone⟩ := Placement.mk.inj hdropped
          cases hnone
    · rw [hmoved.elsewhere owned hscope] at hplaced
      exact .inl hplaced
  · exact .inl hplaced

/-- The rows stay one to a scope. -/
theorem run_indexed (hurl : ParsesAbsolute service.newUrl) {events : List (IntelligenceEvent τ)}
    {w w' : World τ} (hrun : IntelligenceRun service w events w')
    (hindexed : IntelligenceIndexed w.configuration) : IntelligenceIndexed w'.configuration := by
  induction hrun with
  | start => exact hindexed
  | call call _ hsettles ih =>
    rcases (ensures_perform hurl call _ ih).settles hsettles with ⟨_, _, -, -, hmoved⟩ | hsame
    · exact hmoved.indexed
    · rw [hsame]
      exact ih
  | others _ hleaves _ => exact hleaves.indexed

/-- **Runs.** What stands together at the end stood together at the start, or was supplied. -/
theorem run_placed (hurl : ParsesAbsolute service.newUrl) {events : List (IntelligenceEvent τ)}
    {w w' : World τ} (hrun : IntelligenceRun service w events w')
    (hindexed : IntelligenceIndexed w.configuration) {owned : ConfigurationScope}
    {destination : Destination} {ref : String}
    (hplaced : placementOf w'.configuration owned = ⟨some destination, some ref⟩) :
    placementOf w.configuration owned = ⟨some destination, some ref⟩ ∨
      ∃ event ∈ events, event.Supplies service owned destination ref := by
  induction hrun with
  | start => exact .inl hplaced
  | call call hbefore hsettles ih =>
    have hindexed₁ := run_indexed hurl hbefore hindexed
    have hperforms := (ensures_perform hurl call _ hindexed₁).settles hsettles
    rcases placed_step hperforms hplaced with hbefore | hsupplied
    · rcases ih hbefore with hstart | ⟨event, hmem, hsupplied⟩
      · exact .inl hstart
      · exact .inr ⟨event, List.mem_cons_of_mem _ hmem, hsupplied⟩
    · exact .inr ⟨_, List.mem_cons_self, hsupplied⟩
  | others hbefore hleaves ih =>
    rw [hleaves.placement (run_indexed hurl hbefore hindexed)] at hplaced
    exact ih hplaced

end runs

/-! ### A local model -/

section sample

/-- A service behind a gateway that allows. -/
def localIntelligence : IntelligenceService where
  authority := some { application := "crm", authorizer := true, credentials := false }
  newUrl := oneUrl

def operator : VerifiedPrincipal :=
  mintedPrincipal { principalId := "op", principalType := "user", tenantId := "acme" } .host 0

/-- Nothing is configured. -/
def unconfigured : World Nat where
  clock := 0
  nextRef := 1
  verified := [operator]

/-- The local model, and a credential for it. -/
def suppliedModel : IntelligenceWriteInput :=
  { localModel with credentialRef := .str "credential-ref:local-key" }

/-- The calls of the gateway up to the effect. -/
def admitted (capability row : String) : List Choice :=
  let decision : JsValue := .obj [
    ("decision_id", .str "d1"), ("allowed", .bool true), ("capability", .str capability),
    ("tenant_id", .str "acme"), ("application_id", .str "crm"),
    ("subject", .obj [("id", .str "op")]),
    ("resource", .obj [("uri", .str ("appport://crm/tenants/acme/intelligence/" ++
      "production%2FINTELLIGENCE_CONFIG"))])]
  [.proceed, .draw "request", .proceed, .proceed, .proceed, .proceed, .decision false (.ok decision),
    .proceed, .proceed, .proceed, .proceed, .proceed, .draw row, .proceed]

/-- The model is set. -/
def setting : List Choice :=
  admitted "intelligence.write" "row-1" ++
    [.proceed, .proceed, .proceed, .draw "b1", .proceed, .draw "e1", .proceed, .proceed, .proceed,
      .draw "v1", .proceed, .draw "e2", .proceed, .proceed, .proceed, .proceed, .proceed, .proceed,
      .proceed]

/-- It is resolved. -/
def resolving : List Choice :=
  admitted "intelligence.resolve" "row-2" ++ List.replicate 6 .proceed

/-- What a call does when it is answered so. -/
def answeredSo (call : IntelligenceCall) (choices : List Choice) (w : World Nat) :
    Option (Except JsError (Option IntelligenceRuntimeConfiguration) × World Nat) :=
  (Task.after (S := services Nat) AppOp.exec choices
    (localIntelligence.perform (.of operator) call) w).bind Task.settledTo

theorem settles_of_answeredSo {call : IntelligenceCall} {choices : List Choice} {w w' : World Nat}
    {r : Except JsError (Option IntelligenceRuntimeConfiguration)}
    (h : answeredSo call choices w = some (r, w')) :
    Task.Settles (alone Nat) (localIntelligence.perform (.of operator) call) w r w' :=
  Task.settles_of_settledTo (E := alone Nat) (fun _ c _ _ _ hexec => ⟨c, hexec⟩) (fun _ => rfl) h

def localRuntime : IntelligenceRuntimeConfiguration where
  provider := "custom"
  protocol := .openaiCompatible
  model := "qwen"
  endpoint := "http://localhost:8080/v1"
  credentialRef := some "credential-ref:local-key"

end sample

end AppPort
