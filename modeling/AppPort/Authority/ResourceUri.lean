import AppPort.Authority.Gateway

/-!
# Resource identifiers

A decision of the authorizer is bound to a resource by its URI alone. The parts of a URI
are read back from it, so that resources of one URI have one tenant and one type; the
identifier of a collection, `*`, is also that of a record whose id is `*`.
-/

namespace AppPort

variable {τ : Type}

/-! ## Percent encoding is read back -/

/-- The value of an upper-case hexadecimal digit. -/
def hexValue (c : Char) : Nat := "0123456789ABCDEF".toList.idxOf c

theorem hexValue_hexDigit {n : Nat} (h : n < 16) : hexValue (hexDigit n) = n := by
  revert n
  decide

/-- The bytes of a percent-encoded text. -/
def percentDecode : List Char → List UInt8
  | [] => []
  | '%' :: high :: low :: rest => UInt8.ofNat (16 * hexValue high + hexValue low) :: percentDecode rest
  | c :: rest => String.utf8EncodeChar c ++ percentDecode rest

theorem percentDecode_byte (b : UInt8) (rest : List Char) :
    percentDecode ('%' :: hexDigit (b.toNat / 16) :: hexDigit (b.toNat % 16) :: rest) =
      b :: percentDecode rest := by
  have hb : b.toNat < 256 := b.toNat_lt
  rw [percentDecode, hexValue_hexDigit (by omega), hexValue_hexDigit (by omega)]
  have hparts : 16 * (b.toNat / 16) + b.toNat % 16 = b.toNat := Nat.div_add_mod _ _
  rw [hparts, UInt8.ofNat_toNat]

theorem percentDecode_bytes : (bytes : List UInt8) → (rest : List Char) →
    percentDecode ((bytes.flatMap fun b =>
      ['%', hexDigit (b.toNat / 16), hexDigit (b.toNat % 16)]) ++ rest) = bytes ++ percentDecode rest
  | [], rest => rfl
  | b :: bytes, rest => by
    rw [List.flatMap_cons, List.append_assoc]
    exact (percentDecode_byte b _).trans (congrArg (b :: ·) (percentDecode_bytes bytes rest))

theorem percentDecode_encodeURIChar (c : Char) (rest : List Char) :
    percentDecode (encodeURIChar c ++ rest) = String.utf8EncodeChar c ++ percentDecode rest := by
  unfold encodeURIChar
  split
  · next h =>
    have hpercent : c ≠ '%' := by
      rintro rfl
      exact absurd h (by decide)
    rw [List.singleton_append]
    exact percentDecode.eq_3 c rest fun _ _ _ heq _ => hpercent heq
  · exact percentDecode_bytes _ rest

theorem percentDecode_encodeURIComponent (s : String) :
    percentDecode (encodeURIComponent s).toList = s.toList.flatMap String.utf8EncodeChar := by
  unfold encodeURIComponent
  rw [String.toList_ofList]
  induction s.toList with
  | nil => rfl
  | cons c rest ih => rw [List.flatMap_cons, percentDecode_encodeURIChar, ih, List.flatMap_cons]

/-- **`encodeURIComponent` is injective.** -/
theorem encodeURIComponent_injective : Function.Injective encodeURIComponent := by
  intro s t h
  have hbytes : s.toList.flatMap String.utf8EncodeChar = t.toList.flatMap String.utf8EncodeChar := by
    rw [← percentDecode_encodeURIComponent, h, percentDecode_encodeURIComponent]
  have hencoded : (String.ofList s.toList).toByteArray = (String.ofList t.toList).toByteArray := by
    rw [String.toByteArray_ofList, String.toByteArray_ofList]
    exact congrArg List.toByteArray hbytes
  simpa using String.toByteArray_inj.mp hencoded

theorem slash_notMem_encodeURIComponent (s : String) : '/' ∉ (encodeURIComponent s).toList := by
  unfold encodeURIComponent encodeURIChar
  rw [String.toList_ofList, List.mem_flatMap]
  rintro ⟨c, -, hc⟩
  split at hc
  · next h =>
    rw [← List.mem_singleton.mp hc] at h
    exact absurd h (by decide)
  · obtain ⟨b, -, hb⟩ := List.mem_flatMap.mp hc
    have hdigit : ∀ n < 16, '/' ≠ hexDigit n := by decide
    have hb' : b.toNat < 256 := b.toNat_lt
    simp only [List.mem_cons, List.not_mem_nil, or_false] at hb
    rcases hb with hb | hb | hb
    · exact absurd hb (by decide)
    · exact hdigit _ (by omega) hb
    · exact hdigit _ (by omega) hb

/-! ## The parts of a URI -/

/-- Two parts with a slash between them are told apart. -/
theorem parts_of_slash : (a a' : List Char) → {b b' : List Char} → '/' ∉ a → '/' ∉ a' →
    a ++ '/' :: b = a' ++ '/' :: b' → a = a' ∧ b = b'
  | [], [], _, _, _, _, h => ⟨rfl, (List.cons.inj h).2⟩
  | [], c :: _, _, _, _, ha', h => absurd ((List.cons.inj h).1 ▸ List.mem_cons_self) ha'
  | c :: _, [], _, _, ha, _, h => absurd ((List.cons.inj h).1 ▸ List.mem_cons_self) ha
  | c :: a, c' :: a', _, _, ha, ha', h => by
    obtain ⟨rfl, hrest⟩ := List.cons.inj h
    obtain ⟨rfl, hb⟩ := parts_of_slash a a' (fun hmem => ha (List.mem_cons_of_mem _ hmem))
      (fun hmem => ha' (List.mem_cons_of_mem _ hmem)) hrest
    exact ⟨rfl, hb⟩

/-- **A URI has one tenant, one type, and one identifier**, that of a collection being `*`. -/
theorem resourceUri_eq_iff (application : String) (r r' : ServiceResource) :
    resourceUri application r = resourceUri application r' ↔
      r.tenantId = r'.tenantId ∧ r.type = r'.type ∧ r.id.getD "*" = r'.id.getD "*" := by
  constructor
  · intro h
    have hchars := congrArg String.toList h
    unfold resourceUri at hchars
    simp only [String.toList_append, List.append_assoc] at hchars
    have hrest := List.append_cancel_left (List.append_cancel_left (List.append_cancel_left hchars))
    have hslash := slash_notMem_encodeURIComponent
    obtain ⟨htenant, hrest⟩ := parts_of_slash _ _ (hslash r.tenantId) (hslash r'.tenantId) hrest
    obtain ⟨htype, hid⟩ := parts_of_slash _ _ (hslash r.type) (hslash r'.type) hrest
    exact ⟨encodeURIComponent_injective (String.toList_injective htenant),
      encodeURIComponent_injective (String.toList_injective htype),
      encodeURIComponent_injective (String.toList_injective hid)⟩
  · rintro ⟨htenant, htype, hid⟩
    unfold resourceUri
    rw [htenant, htype, hid]

/-- One is a collection, and the other the record with its placeholder for an id. -/
def IsPlaceholderOf (r r' : ServiceResource) : Prop :=
  r.tenantId = r'.tenantId ∧ r.type = r'.type ∧
    (r.id = none ∧ r'.id = some "*" ∨ r.id = some "*" ∧ r'.id = none)

/-- The same resource, attributes apart. -/
def SameResource (r r' : ServiceResource) : Prop :=
  r.tenantId = r'.tenantId ∧ r.type = r'.type ∧ r.id = r'.id

theorem sameResource_or_placeholder {application : String} {r r' : ServiceResource}
    (h : resourceUri application r = resourceUri application r') :
    SameResource r r' ∨ IsPlaceholderOf r r' := by
  obtain ⟨htenant, htype, hid⟩ := (resourceUri_eq_iff application r r').mp h
  cases hr : r.id with
  | none =>
    cases hr' : r'.id with
    | none => exact .inl ⟨htenant, htype, hr.trans hr'.symm⟩
    | some id' =>
      rw [hr, hr'] at hid
      obtain rfl : "*" = id' := hid
      exact .inr ⟨htenant, htype, .inl ⟨hr, hr'⟩⟩
  | some id =>
    cases hr' : r'.id with
    | none =>
      rw [hr, hr'] at hid
      obtain rfl : id = "*" := hid
      exact .inr ⟨htenant, htype, .inr ⟨hr, hr'⟩⟩
    | some id' =>
      rw [hr, hr'] at hid
      obtain rfl : id = id' := hid
      exact .inl ⟨htenant, htype, hr.trans hr'.symm⟩

open ServiceGateway

/-- The decisions accepted for one of two resources are accepted for the other only where
these are the same: whoever asks, and for whatever. -/
def BindsDecisions (τ : Type) (application : String) (r r' : ServiceResource) : Prop :=
  ∀ (gateway : ServiceGateway) (capability capability' : ServiceCapability)
    (principal principal' : VerifiedPrincipal) (requestId requestId' : String) (t t' : τ)
    (decision : JsValue), gateway.application = application →
    validateDecision (gateway.request capability principal r requestId t) decision = true →
    validateDecision (gateway.request capability' principal' r' requestId' t') decision = true →
    SameResource r r'

/-- **A URI binds a decision to a resource**, except that a collection and the record called
`*` are one to it. -/
theorem resourceUri_binds_iff (application : String) (r r' : ServiceResource) :
    ((resourceUri application r = resourceUri application r' → SameResource r r') ∧
      BindsDecisions τ application r r') ↔ ¬ IsPlaceholderOf r r' := by
  constructor
  · rintro ⟨hbinds, -⟩ ⟨htenant, htype, hids⟩
    have huri : resourceUri application r = resourceUri application r' := by
      rw [resourceUri_eq_iff]
      refine ⟨htenant, htype, ?_⟩
      rcases hids with ⟨hr, hr'⟩ | ⟨hr, hr'⟩ <;> rw [hr, hr'] <;> rfl
    obtain ⟨-, -, hid⟩ := hbinds huri
    rcases hids with ⟨hr, hr'⟩ | ⟨hr, hr'⟩ <;> rw [hr, hr'] at hid <;> cases hid
  · intro hnot
    have hsame : resourceUri application r = resourceUri application r' → SameResource r r' :=
      fun huri => (sameResource_or_placeholder huri).resolve_right hnot
    refine ⟨hsame, ?_⟩
    rintro gateway capability capability' principal principal' requestId requestId' t t' decision rfl
      haccepted haccepted'
    obtain ⟨-, -, -, -, -, huri⟩ := validateDecision_fields haccepted
    obtain ⟨-, -, -, -, -, huri'⟩ := validateDecision_fields haccepted'
    exact hsame (JsValue.str.inj (huri.symm.trans huri'))

/-- Every job of a tenant, and the one called `*`. -/
def everyJob : ServiceResource := { type := "job", tenantId := "acme" }
def starJob : ServiceResource := { type := "job", tenantId := "acme", id := some "*" }

/-- An allow decision on every job. -/
def everyJobDecision : JsValue := .obj [
  ("decision_id", .str "d1"), ("allowed", .bool true), ("capability", .str "jobs.read"),
  ("tenant_id", .str "acme"), ("application_id", .str "app"),
  ("subject", .obj [("id", .str "ada")]),
  ("resource", .obj [("uri", .str "appport://app/tenants/acme/job/*")])]

def jobReader : VerifiedPrincipal :=
  mintedPrincipal { principalId := "ada", principalType := "user", tenantId := "acme" } .host 0

def jobsRead : ServiceCapability := ⟨"jobs.read", "jobs", "listJobs", .observation, "job", true, 1⟩

/-- **A decision made for every job of a tenant is accepted for the job called `*`.** -/
theorem everyJob_is_starJob : resourceUri "app" everyJob = resourceUri "app" starJob ∧
    ¬ SameResource everyJob starJob ∧ ¬ BindsDecisions Nat "app" everyJob starJob := by
  have hdistinct : ¬ SameResource everyJob starJob := fun hsame => nomatch hsame.2.2
  refine ⟨rfl, hdistinct, fun hbinds => hdistinct ?_⟩
  exact hbinds { application := "app", authorizer := true, credentials := false } jobsRead jobsRead
    jobReader jobReader "r1" "r2" 0 0 everyJobDecision rfl (by decide +kernel) (by decide +kernel)

end AppPort
